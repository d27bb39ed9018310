import ProcTrace.Proofs.Session.Lifetime

/-!
# Signals that are held back while attaching

Before its attach-stop a tracee can be stopped by other signals. They are held back, and a wait that
sees the attach-stop sends them again. The signals are kept for one wait only : one that fails has
lost those that it has not sent (`unsent`), and a later wait, or the one that is made when the
session is dropped, does not know of them.

What is held back in a whole attach phase is what is sent again and what failed waits have lost
(`heldBack_perm_of_after`). So every signal is sent again exactly if no wait has lost any
(`sentAgain_perm_iff_nothing_lost`).
-/

namespace ProcTrace

/-! ## Signals in a transcript -/

/-- The signal that stopped the tracee and has to be sent again. The signal of an attach-stop and a
trap do not. -/
def StopReport.heldBack : StopReport → List Signal
  | .signal .stop | .signal .trap => []
  | .signal caught => [caught]
  | .event _ _ | .syscall => []

theorem StopReport.deferred_eq_heldBack {report : StopReport} (h : report ≠ .attachStop) :
    report.deferred = report.heldBack := by
  cases report with
  | signal caught =>
    cases caught with
    | stop => exact absurd rfl h
    | _ => rfl
  | event | syscall => rfl

/-- The signal that a call holds back, if it is a wait that tells of a stop by one. -/
def Call.heldBack (call : Call) : List Signal :=
  match call.change? with
  | some (.stopped report) => report.heldBack
  | _ => []

/-- The signal that a call sends to `pid`, whether or not the kernel permits it. -/
def Call.sent (pid : Pid) (call : Call) : List Signal :=
  match call.request with
  | .kill target signal => if target = pid then [signal] else []
  | _ => []

/-- The signals that are held back in some calls, in order. -/
def heldBack (calls : List Call) : List Signal :=
  calls.flatMap Call.heldBack

/-- The signals that are sent to `pid` in some calls, in order. -/
def sentAgain (pid : Pid) (calls : List Call) : List Signal :=
  calls.flatMap (Call.sent pid)

/-- The signals that are held back in some calls and not sent again. -/
def unsent (pid : Pid) (calls : List Call) : List Signal :=
  (heldBack calls).drop (sentAgain pid calls).length

section

variable {pid : Pid} {calls : List Call}

@[simp] theorem heldBack_append (xs ys : List Call) :
    heldBack (xs ++ ys) = heldBack xs ++ heldBack ys :=
  List.flatMap_append

@[simp] theorem sentAgain_append (pid : Pid) (xs ys : List Call) :
    sentAgain pid (xs ++ ys) = sentAgain pid xs ++ sentAgain pid ys :=
  List.flatMap_append

theorem heldBack_eq_nil (h : ∀ call ∈ calls, ∀ report, call.change? ≠ some (.stopped report)) :
    heldBack calls = [] := by
  refine List.flatMap_eq_nil_iff.2 fun call hcall => ?_
  unfold Call.heldBack
  split
  next report hreport => exact absurd hreport (h call hcall report)
  next => rfl

theorem sentAgain_eq_nil (h : ∀ call ∈ calls, ∀ signal, call.request ≠ .kill pid signal) :
    sentAgain pid calls = [] := by
  refine List.flatMap_eq_nil_iff.2 fun call hcall => ?_
  unfold Call.sent
  split
  next target signal hrequest =>
    refine if_neg fun htarget => ?_
    exact h call hcall signal (htarget ▸ hrequest)
  next => rfl

/-- Signals that are sent again in the order in which they were held back leave the last ones. -/
theorem sentAgain_append_unsent (h : sentAgain pid calls <+: heldBack calls) :
    sentAgain pid calls ++ unsent pid calls = heldBack calls := by
  obtain ⟨rest, hrest⟩ := h
  rw [unsent, ← hrest, List.drop_left]

/-! ## The attach phase -/

theorem StopSeen.heldBack_eq {report : StopReport} (h : StopSeen pid calls report) :
    heldBack calls = report.heldBack := by
  obtain ⟨reply, reporter, ⟨idle, rfl, hidle⟩, hends⟩ := h
  have hnone : heldBack idle = [] := by
    refine heldBack_eq_nil fun call hcall report => ?_
    simp [change?_of_idle (hidle call hcall).1 (hidle call hcall).2]
  have hlast : heldBack [⟨.waitpid pid, reply⟩] = report.heldBack := by
    simp [heldBack, Call.heldBack, hends.change?_eq]
  rw [heldBack_append, hnone, hlast, List.nil_append]

theorem StopSeen.sentAgain_eq {report : StopReport} (h : StopSeen pid calls report) :
    sentAgain pid calls = [] :=
  sentAgain_eq_nil fun call hcall signal => by simp [h.request hcall]

theorem StopMissed.sentAgain_eq {error : Error} (h : StopMissed pid calls error) :
    sentAgain pid calls = [] :=
  sentAgain_eq_nil fun call hcall signal => by simp [h.request hcall]

/-- Early stops hold their signals back. -/
theorem EarlyStops.heldBack_eq {signals : List Signal} (h : EarlyStops pid calls signals) :
    heldBack calls = signals := by
  induction h with
  | nil => rfl
  | @cons waits calls report signals answer seen early rest ih =>
    have hcont : heldBack (⟨.cont pid none, .ok answer⟩ :: calls) = heldBack calls := rfl
    rw [heldBack_append, seen.heldBack_eq, hcont, ih, StopReport.deferred_eq_heldBack early]

theorem EarlyStops.sentAgain_eq {signals : List Signal} (h : EarlyStops pid calls signals) :
    sentAgain pid calls = [] := by
  refine sentAgain_eq_nil fun call hcall signal => ?_
  rcases (h.of_mem hcall).1 with hrequest | hrequest
  · simp [hrequest]
  · simp [hrequest]

theorem Requeued.heldBack_eq {signals : List Signal} (h : Requeued pid signals calls) :
    heldBack calls = [] := by
  refine heldBack_eq_nil fun call hcall report => ?_
  obtain ⟨signal, answer, rfl⟩ := h.of_mem hcall
  simp [Call.change?]

theorem Requeued.sentAgain_eq {signals : List Signal} (h : Requeued pid signals calls) :
    sentAgain pid calls = signals := by
  induction h with
  | nil => rfl
  | @cons signal signals calls answer rest ih =>
    have hkill : Call.sent pid ⟨.kill pid signal, .ok answer⟩ = [signal] := if_pos rfl
    rw [sentAgain, List.flatMap_cons, hkill, ← sentAgain, ih, List.singleton_append]

/-- The attach-stop itself is not held back. -/
theorem heldBack_attachStop : StopReport.heldBack .attachStop = [] := rfl

/-- A phase that reaches the attach-stop sends all signals again that it has held back. -/
theorem AttachPhase.sentAgain_eq_heldBack (h : AttachPhase pid calls (.ok ())) :
    sentAgain pid calls = heldBack calls := by
  cases h with
  | reached stops seen sent =>
    simp only [sentAgain_append, heldBack_append, stops.sentAgain_eq, seen.sentAgain_eq,
      sent.sentAgain_eq, stops.heldBack_eq, seen.heldBack_eq, sent.heldBack_eq,
      heldBack_attachStop, List.nil_append, List.append_nil]

/-- A phase that fails sends the first signals again that it has held back, if any. -/
theorem AttachPhase.isPrefix_sentAgain {result : Except Error Unit}
    (h : AttachPhase pid calls result) : sentAgain pid calls <+: heldBack calls := by
  cases h with
  | missed missed =>
    -- Nothing is sent again before the attach-stop.
    have hnone : sentAgain pid calls = [] := by
      cases missed with
      | waiting stops missed =>
        rw [sentAgain_append, stops.sentAgain_eq, missed.sentAgain_eq, List.nil_append]
      | restarting errno stops seen =>
        rw [sentAgain_append, sentAgain_append, stops.sentAgain_eq, seen.sentAgain_eq]
        rfl
    rw [hnone]
    exact ⟨_, List.nil_append _⟩
  | reached stops seen sent =>
    have hall := (AttachPhase.reached stops seen sent).sentAgain_eq_heldBack
    exact ⟨[], (List.append_nil _).trans hall⟩
  | @refused early waits kills sent unsent signal errno stops seen requeued =>
    have hkill : sentAgain pid [⟨.kill pid signal, .error errno⟩] = [signal] := by
      simp [sentAgain, Call.sent]
    have hkept : heldBack [⟨.kill pid signal, .error errno⟩] = [] := rfl
    simp only [sentAgain_append, heldBack_append, stops.sentAgain_eq, seen.sentAgain_eq,
      requeued.sentAgain_eq, stops.heldBack_eq, seen.heldBack_eq, requeued.heldBack_eq,
      heldBack_attachStop, hkill, hkept, List.nil_append, List.append_nil]
    exact ⟨unsent, by simp⟩

end

/-! ## Runs -/

namespace Session

variable {s t : Session} {operation : Operation} {calls : List Call}
  {result : Except Error Outcome}

/-- Every step of an attaching session sends the first signals again that it has held back. -/
theorem Step.isPrefix_sentAgain (h : s.Step operation calls result t) (hs : s.state = .attaching) :
    sentAgain s.pid calls <+: heldBack calls := by
  cases h with
  | refused => exact List.prefix_refl _
  | attachStop state phase | attachFailed state phase => exact phase.isPrefix_sentAgain
  | waitFailed state | changed state | resumed _ state | notResumed _ state | optionsSet _ state
  | optionsNotSet _ state => cases hs.symm.trans state
  | read allowed reading reads =>
    have hopen : ∀ call ∈ calls, call.request = .openExecutable s.pid := by
      intro call hcall
      cases operation with
      | machine => exact reads call hcall
      | _ => simp [Operation.Allowed, hs, Operation.isReading] at allowed reading
    have hnone : sentAgain s.pid calls = [] :=
      sentAgain_eq_nil fun call hcall signal => by simp [hopen call hcall]
    rw [hnone]
    exact ⟨_, List.nil_append _⟩

/-- The signals that were held back in some turns and lost, as the turn was over before they were
sent again. -/
def lostSignals : Session → List Turn → List Signal
  | _, [] => []
  | s, turn :: turns => unsent s.pid (s.take turn).calls ++ (s.take turn).result.2.lostSignals turns

/-- While a session is attaching, a signal that is held back is sent again in its turn or lost. -/
theorem heldBack_perm_of_after {turns : List Turn} (h : (s.after turns).state = .attaching) :
    (heldBack (s.callsOf turns)).Perm
      (sentAgain s.pid (s.callsOf turns) ++ s.lostSignals turns) := by
  induction turns generalizing s with
  | nil => exact List.Perm.refl _
  | cons turn turns ih =>
    have hstep := step_take s turn
    have hturn := sentAgain_append_unsent (hstep.isPrefix_sentAgain (attaching_of_after h))
    have hrest := ih h
    rw [hstep.pid] at hrest
    have hnow : (heldBack (s.take turn).calls).Perm
        (sentAgain s.pid (s.take turn).calls ++ unsent s.pid (s.take turn).calls) := by
      rw [hturn]
    rw [callsOf, heldBack_append, sentAgain_append, lostSignals, List.append_assoc]
    refine (hnow.append hrest).trans ?_
    rw [List.append_assoc]
    exact (List.perm_append_comm_assoc _ _ _).append_left _

/-- The calls that end an attach phase well : those of a wait that reports the attach-stop, or of
ending the session in a way that detaches the tracee, after a wait for the attach-stop. -/
inductive AttachEnd (s : Session) : List Call → Prop
  | reported {replies : List Reply} (attached : (s.wait replies).result.1 = .ok .attach) :
      AttachEnd s (s.wait replies).calls
  | detached {closing : Closing} {replies : List Reply}
      (detaches : (closing.calls s replies).any Call.detaches = true) :
      AttachEnd s (closing.calls s replies)

/-- The end of an attach phase sends all signals again that it has held back itself. -/
theorem AttachEnd.sentAgain_eq_heldBack (h : s.AttachEnd calls) (hs : s.state = .attaching) :
    sentAgain s.pid calls = heldBack calls := by
  cases h with
  | @reported replies attached =>
    rcases wait_attaching_cases hs replies with ⟨hphase, _⟩ | ⟨error, _, hr⟩
    · exact hphase.sentAgain_eq_heldBack
    · rw [hr] at attached
      cases attached
  | @detached closing replies detaches =>
    have hdropped := closing.dropped s replies
    revert detaches hdropped
    generalize closing.calls s replies = calls
    intro detaches hdropped
    cases hdropped with
    | detached reply state => cases hs.symm.trans state
    | missed state phase =>
      obtain ⟨call, hcall, hdetach⟩ := List.any_eq_true.1 detaches
      cases (phase.endsBy.undetached call hcall).symm.trans hdetach
    | @reached calls reply state phase =>
      have hsent : sentAgain s.pid [⟨.detach s.pid none, reply⟩] = [] := rfl
      have hheld : heldBack [⟨.detach s.pid none, reply⟩] = [] := rfl
      rw [sentAgain_append, heldBack_append, hsent, hheld, phase.sentAgain_eq_heldBack]
    | left attaching => exact absurd hs attaching

/-- In every attach phase that ends well, what was held back is what was sent again and what earlier
waits have lost. So all of it was sent again exactly if they have lost nothing. -/
theorem sentAgain_perm_iff_nothing_lost {opening : Opening} {pid : Pid} {replies : List Reply}
    {s : Session} (h : (opening.begin pid replies).result = .ok s) {turns : List Turn}
    (hs : (s.after turns).state = .attaching) {ending : List Call}
    (hend : (s.after turns).AttachEnd ending) :
    let calls := (opening.begin pid replies).calls ++ s.callsOf turns ++ ending
    (heldBack calls).Perm (sentAgain pid calls ++ s.lostSignals turns) ∧
      ((sentAgain pid calls).Perm (heldBack calls) ↔ s.lostSignals turns = []) := by
  intro calls
  have hattach (call : Call) (hcall : call ∈ (opening.begin pid replies).calls) :
      call.request = .attach pid := opening.asks_begin pid replies call hcall
  have hheld : heldBack (opening.begin pid replies).calls = [] :=
    heldBack_eq_nil fun call hcall report => by
      rw [change?_eq_none fun _ => by simp [hattach call hcall]]
      simp
  have hsent : sentAgain pid (opening.begin pid replies).calls = [] :=
    sentAgain_eq_nil fun call hcall signal => by simp [hattach call hcall]
  have hpid : s.pid = pid := by rw [Opening.eq_attaching_of_begin h]; rfl
  have hending := hend.sentAgain_eq_heldBack hs
  rw [pid_after, hpid] at hending
  have hturns := heldBack_perm_of_after hs
  rw [hpid] at hturns
  have hall : (heldBack calls).Perm (sentAgain pid calls ++ s.lostSignals turns) := by
    simp only [calls, heldBack_append, sentAgain_append, hheld, hsent, List.nil_append, hending]
    refine (hturns.append_right _).trans ?_
    rw [List.append_assoc, List.append_assoc]
    exact List.perm_append_comm.append_left _
  refine ⟨hall, fun hperm => ?_, fun hnothing => ?_⟩
  · have hlength := hall.length_eq
    rw [List.length_append, hperm.length_eq] at hlength
    exact List.eq_nil_of_length_eq_zero (by omega)
  · rw [hnothing, List.append_nil] at hall
    exact hall.symm

/-- A wait fails before the tracee has stopped. The next one holds a signal back, sends it again
after the attach-stop, and nothing is lost. -/
theorem sentAgain_perm_after_failed_wait :
    let s : Session := .attaching ⟨5⟩
    let turns : List Turn := [⟨.wait, [.error .einval]⟩]
    let last := (s.after turns).wait [.ok { status := 0x0a7f }, .ok {}, .ok { status := 0x057f },
      .ok {}, .ok { status := 0x137f }, .ok {}]
    (Opening.adopt.begin ⟨5⟩ []).result = .ok s ∧ last.result.1 = .ok .attach ∧
      sentAgain ⟨5⟩ last.calls = [.usr1] ∧
      (sentAgain ⟨5⟩ (s.callsOf turns ++ last.calls)).Perm
        (heldBack (s.callsOf turns ++ last.calls)) := by
  intro s turns last
  have hopened : (Opening.adopt.begin ⟨5⟩ []).result = .ok s := rfl
  have hlast : last.result.1 = .ok .attach := eq_ok_of_toOption (by decide +kernel)
  have hattaching : (s.after turns).state = .attaching := by decide +kernel
  have hperm := (sentAgain_perm_iff_nothing_lost hopened hattaching (.reported hlast)).2.2
    (by decide +kernel)
  exact ⟨hopened, hlast, by decide +kernel, hperm⟩

/-- A signal is held back, then the tracee cannot be restarted and the wait fails. The next wait
reports the attach-stop, and the signal is never sent again. -/
theorem signal_lost_by_failed_wait :
    let s : Session := .attaching ⟨5⟩
    let turns : List Turn := [⟨.wait, [.ok { status := 0x0a7f }, .error .eperm]⟩]
    let last := (s.after turns).wait [.ok { status := 0x137f }]
    (Opening.adopt.begin ⟨5⟩ []).result = .ok s ∧ last.result.1 = .ok .attach ∧
      heldBack (s.callsOf turns ++ last.calls) = [.usr1] ∧
      sentAgain ⟨5⟩ (s.callsOf turns ++ last.calls) = [] := by
  intro s turns last
  exact ⟨rfl, eq_ok_of_toOption (by decide +kernel), by decide +kernel, by decide +kernel⟩

end Session

end ProcTrace
