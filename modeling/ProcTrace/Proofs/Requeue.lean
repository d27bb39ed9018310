import ProcTrace.Proofs.Session.AttachStop
import ProcTrace.Proofs.Session.HeldBack

/-!
# Early stops and their signals

What a wait for the attach-stop does with the stops that come before it, call by call. Each of them
is restarted once, without a signal, before the next wait (`Call.LeadsTo`), and nothing is restarted
after the attach-stop. The signals that were held back are sent again in the order in which they
came, after the last wait : all of them if the wait succeeds, and the first ones if it does not. A
wait that fails does so with the error of its last call, which is the only one that fails
(`Requeues`).

`requeues_reachAttachStop` says so of every process and all replies. It goes through the transcripts
of the attach phase, where a call and those after it are looked at together (`EachBefore`).
-/

namespace ProcTrace

/-! ## Calls and what comes after them -/

/-- The request sends a signal. -/
def Request.isKill : Request → Bool
  | kill _ _ => true
  | _ => false

/-- The call is a wait. -/
def Call.isWait (call : Call) : Bool :=
  match call.request with
  | .waitpid _ => true
  | _ => false

/-- Every call has the property together with the calls after it. -/
def EachBefore (p : Call → List Call → Prop) : List Call → Prop
  | [] => True
  | call :: later => p call later ∧ EachBefore p later

theorem EachBefore.of_append {p : Call → List Call → Prop} {before : List Call} {call : Call}
    {later : List Call} (h : EachBefore p (before ++ call :: later)) : p call later := by
  induction before with
  | nil => exact h.1
  | cons first before ih => exact ih h.2

theorem eachBefore_of_forall {p : Call → List Call → Prop} {calls : List Call}
    (h : ∀ call ∈ calls, ∀ later, p call later) : EachBefore p calls := by
  induction calls with
  | nil => trivial
  | cons call later ih =>
    exact ⟨h call (List.mem_cons_self ..) later, ih fun c hc => h c (List.mem_cons_of_mem _ hc)⟩

/-- What has to come after a call of a wait for the attach-stop that ends with `result`. An early
stop is restarted, and that is all before the next wait. After the attach-stop there is nothing but
signals to send, and after the end of the tracee nothing at all. A wait that tells nothing is
repeated, if anything comes after it. -/
def Call.LeadsTo (pid : Pid) (result : Except Error Unit) (call : Call) (later : List Call) :
    Prop :=
  match call.change? with
  | some (.stopped report) =>
    if report = .attachStop then ∀ next ∈ later, ∃ signal, next.request = .kill pid signal
    else (later.takeWhile fun next => !next.isWait).map Call.request = [.cont pid none]
  | some (.ended _) => later = [] ∧ result = .error (.noSuchProcess pid .esrch)
  | none => call.isWait = true → ∀ next ∈ later.head?, next.isWait = true

/-- The call makes a wait for the attach-stop fail with this error : a wait that fails itself or is
told of the end of the tracee, or a request that is refused. -/
inductive Call.FailsWith (pid : Pid) : Call → Error → Prop
  | wait {reply : Reply} {errno : Errno} (ends : reply.Ends pid (.error errno)) :
      FailsWith pid ⟨.waitpid pid, reply⟩ (.ofErrno pid errno)
  | ended {reply : Reply} {reporter : Pid} {ending : Ending}
      (ends : reply.Ends pid (.ok (reporter, .ended ending))) :
      FailsWith pid ⟨.waitpid pid, reply⟩ (.noSuchProcess pid .esrch)
  | refused {request : Request} (errno : Errno) (noWait : request ≠ .waitpid pid) :
      FailsWith pid ⟨request, .error errno⟩ (.ofErrno pid errno)

/-- None of the calls makes a wait for the attach-stop fail. -/
def NoneFails (pid : Pid) (calls : List Call) : Prop :=
  ∀ call ∈ calls, ∀ error, ¬call.FailsWith pid error

/-- The last call makes a wait for the attach-stop fail with this error, and no call before it
does. -/
def FailsLast (pid : Pid) (calls : List Call) (error : Error) : Prop :=
  ∃ before last, calls = before ++ [last] ∧ NoneFails pid before ∧ last.FailsWith pid error

/-- The signals of the stops before the attach-stop, in order, without the traps. -/
def earlySignals (calls : List Call) : List Signal :=
  heldBack (calls.takeWhile fun call => !call.showsAttachStop)

/-- The requests that send a signal, in order. -/
def kills (calls : List Call) : List Request :=
  (calls.map Call.request).filter Request.isKill

/-- Calls that restart every early stop, and send the signals of these stops again after the
attach-stop. -/
structure Requeues (pid : Pid) (calls : List Call) (result : Except Error Unit) : Prop where
  /-- Nothing else is asked. -/
  asked : ∀ call ∈ calls, call.request = .waitpid pid ∨ call.request = .cont pid none ∨
    ∃ signal, call.request = .kill pid signal
  /-- The stops are restarted, up to the attach-stop. -/
  leads : EachBefore (Call.LeadsTo pid result) calls
  /-- The waits come first, and then the signals that are sent. -/
  waitsFirst : ∃ before sent, calls = before ++ sent ∧
    (∀ call ∈ before, call.request.isKill = false) ∧ ∀ call ∈ sent, call.isWait = false
  /-- No signal is sent unless the attach-stop was seen. -/
  seen : (∃ call ∈ calls, call.request.isKill = true) → calls.any Call.showsAttachStop = true
  /-- Signals are sent again in order. -/
  inOrder : kills calls <+: (earlySignals calls).map (.kill pid)
  /-- All signals are sent again if the wait succeeds. -/
  all : result = .ok () → kills calls = (earlySignals calls).map (.kill pid)
  /-- The wait succeeds if the attach-stop is seen and no signal is refused. -/
  succeeds : result = .ok () ↔ calls.any Call.showsAttachStop = true ∧
    ∀ call ∈ calls, call.request.isKill = true → ∃ answer, call.reply = .ok answer
  /-- None of the calls fails if the wait succeeds. -/
  noneFails : result = .ok () → NoneFails pid calls
  /-- A wait that fails ends with the first call that fails, and with the error of that call. -/
  failsLast : ∀ error, result = .error error → FailsLast pid calls error

variable {pid : Pid} {calls later : List Call} {result : Except Error Unit} {report : StopReport}
  {signals : List Signal} {error : Error}

/-! ## The parts of the phase -/

/-- A call that is no wait leads to anything. -/
theorem leadsTo_of_not_wait {call : Call} (h : call.isWait = false) :
    call.LeadsTo pid result later := by
  have hnone : call.change? = none := change?_eq_none fun asked hrequest => by
    simp [Call.isWait, hrequest] at h
  simp [Call.LeadsTo, hnone, h]

/-- What comes after the last call of a wait comes after the wait. -/
theorem Waits.eachBefore {reply : Reply} (h : Waits pid calls reply)
    (hlast : Call.LeadsTo pid result ⟨.waitpid pid, reply⟩ later)
    (hlater : EachBefore (Call.LeadsTo pid result) later) :
    EachBefore (Call.LeadsTo pid result) (calls ++ later) := by
  obtain ⟨idle, rfl, hidle⟩ := h
  rw [List.append_assoc, List.singleton_append]
  induction idle with
  | nil => exact ⟨hlast, hlater⟩
  | cons call idle ih =>
    obtain ⟨hrequest, hreply⟩ := hidle call (List.mem_cons_self ..)
    have hrest (c : Call) (hc : c ∈ idle) := hidle c (List.mem_cons_of_mem _ hc)
    refine ⟨?_, ih hrest⟩
    simp only [Call.LeadsTo, change?_of_idle hrequest hreply]
    intro _ next hnext
    cases idle with
    | nil =>
      cases hnext
      rfl
    | cons other idle =>
      obtain rfl : other = next := Option.some.inj hnext
      have hother := (hrest other (List.mem_cons_self ..)).1
      simp [Call.isWait, hother]

theorem StopSeen.eachBefore_of_early (h : StopSeen pid calls report) (early : report ≠ .attachStop)
    (hrestart : (later.takeWhile fun next => !next.isWait).map Call.request = [.cont pid none])
    (hlater : EachBefore (Call.LeadsTo pid result) later) :
    EachBefore (Call.LeadsTo pid result) (calls ++ later) := by
  obtain ⟨reply, reporter, hwaits, hends⟩ := h
  refine hwaits.eachBefore ?_ hlater
  simp only [Call.LeadsTo, hends.change?_eq, if_neg early]
  exact hrestart

theorem StopSeen.eachBefore_of_attachStop (h : StopSeen pid calls .attachStop)
    (hkills : ∀ next ∈ later, ∃ signal, next.request = .kill pid signal) :
    EachBefore (Call.LeadsTo pid result) (calls ++ later) := by
  obtain ⟨reply, reporter, hwaits, hends⟩ := h
  refine hwaits.eachBefore ?_ (eachBefore_of_forall fun call hcall later => ?_)
  · simp only [Call.LeadsTo, hends.change?_eq, if_pos]
    exact hkills
  · obtain ⟨signal, hrequest⟩ := hkills call hcall
    exact leadsTo_of_not_wait (by simp [Call.isWait, hrequest])

theorem StopMissed.eachBefore (h : StopMissed pid calls error) :
    EachBefore (Call.LeadsTo pid (.error error)) calls := by
  rw [← List.append_nil calls]
  cases h with
  | failed waits ends =>
    refine waits.eachBefore ?_ trivial
    simp [Call.LeadsTo, ends.change?_eq_none]
  | ended waits ends =>
    refine waits.eachBefore ?_ trivial
    simp [Call.LeadsTo, ends.change?_eq]

/-- Early stops are restarted one by one, each before the next wait. -/
theorem EarlyStops.eachBefore (h : EarlyStops pid calls signals)
    (hwait : ∃ reply rest, later = ⟨.waitpid pid, reply⟩ :: rest)
    (hlater : EachBefore (Call.LeadsTo pid result) later) :
    EachBefore (Call.LeadsTo pid result) (calls ++ later) := by
  induction h with
  | nil => exact hlater
  | @cons waits calls report signals answer seen early rest ih =>
    obtain ⟨reply, more, hnext⟩ := rest.exists_wait_append hwait
    rw [List.append_assoc, List.cons_append]
    refine seen.eachBefore_of_early early ?_ ⟨leadsTo_of_not_wait rfl, ih⟩
    rw [hnext]
    rfl

theorem AttachStopMissed.eachBefore (h : AttachStopMissed pid calls error) :
    EachBefore (Call.LeadsTo pid (.error error)) calls := by
  cases h with
  | waiting stops missed => exact stops.eachBefore missed.exists_wait missed.eachBefore
  | restarting errno stops seen notYet =>
    refine stops.eachBefore (seen.exists_wait_append _) ?_
    exact seen.eachBefore_of_early notYet rfl ⟨leadsTo_of_not_wait rfl, trivial⟩

/-- Nothing is sent as long as the attach-stop is missed. -/
theorem AttachStopMissed.request (h : AttachStopMissed pid calls error) {call : Call}
    (hcall : call ∈ calls) : call.request = .waitpid pid ∨ call.request = .cont pid none := by
  cases h with
  | waiting stops missed =>
    rcases List.mem_append.1 hcall with hcall | hcall
    · exact (stops.of_mem hcall).1
    · exact Or.inl (missed.request hcall)
  | restarting errno stops seen notYet =>
    rcases List.mem_append.1 hcall with hcall | hcall
    · exact (stops.of_mem hcall).1
    · rcases List.mem_append.1 hcall with hcall | hcall
      · exact Or.inl (seen.request hcall)
      · rw [List.mem_singleton.1 hcall]
        exact Or.inr rfl

theorem StopSeen.any_showsAttachStop (h : StopSeen pid calls .attachStop) :
    calls.any Call.showsAttachStop = true := by
  obtain ⟨reply, reporter, ⟨idle, rfl, hidle⟩, hends⟩ := h
  simp [Call.showsAttachStop, hends.change?_eq]

/-- A phase misses the attach-stop, or sees it and sends signals from then on. It succeeds if the
kernel takes them all. -/
theorem AttachPhase.missed_or_seen (h : AttachPhase pid calls result) :
    (∃ error, AttachStopMissed pid calls error ∧ result = .error error) ∨
    ∃ early waits sent signals, calls = early ++ (waits ++ sent) ∧
      EarlyStops pid early signals ∧ StopSeen pid waits .attachStop ∧
      (∀ call ∈ sent, ∃ signal, call.request = .kill pid signal) ∧
      (result = .ok () ↔ ∀ call ∈ sent, ∃ answer, call.reply = .ok answer) := by
  cases h with
  | missed missed => exact Or.inl ⟨_, missed, rfl⟩
  | @reached early waits sent signals stops seen requeued =>
    refine Or.inr ⟨early, waits, sent, signals, rfl, stops, seen, fun call hcall => ?_,
      iff_of_true rfl fun call hcall => ?_⟩
    all_goals obtain ⟨signal, answer, rfl⟩ := requeued.of_mem hcall
    · exact ⟨signal, rfl⟩
    · exact ⟨answer, rfl⟩
  | @refused early waits kills sent unsent signal errno stops seen requeued =>
    refine Or.inr ⟨early, waits, _, _, rfl, stops, seen, fun call hcall => ?_,
      iff_of_false nofun fun hall => ?_⟩
    · rcases List.mem_append.1 hcall with hcall | hcall
      · obtain ⟨signal, answer, rfl⟩ := requeued.of_mem hcall
        exact ⟨signal, rfl⟩
      · rw [List.mem_singleton.1 hcall]
        exact ⟨signal, rfl⟩
    · obtain ⟨answer, hanswer⟩ := hall _ (List.mem_append_right _ (List.mem_singleton_self _))
      cases hanswer

theorem AttachPhase.eachBefore (h : AttachPhase pid calls result) :
    EachBefore (Call.LeadsTo pid result) calls := by
  rcases h.missed_or_seen with ⟨error, missed, rfl⟩ | ⟨_, _, _, _, rfl, stops, seen, hsent, -⟩
  · exact missed.eachBefore
  · exact stops.eachBefore (seen.exists_wait_append _) (seen.eachBefore_of_attachStop hsent)

/-- Signals are sent at the end, and only if the attach-stop was seen. The phase succeeds if it was,
and the kernel takes all the signals. -/
theorem AttachPhase.exists_append (h : AttachPhase pid calls result) :
    ∃ before sent, calls = before ++ sent ∧
      (∀ call ∈ before, call.request = .waitpid pid ∨ call.request = .cont pid none) ∧
      (∀ call ∈ sent, ∃ signal, call.request = .kill pid signal) ∧
      (sent ≠ [] → before.any Call.showsAttachStop = true) ∧
      (result = .ok () ↔ before.any Call.showsAttachStop = true ∧
        ∀ call ∈ sent, ∃ answer, call.reply = .ok answer) := by
  rcases h.missed_or_seen with
    ⟨error, missed, rfl⟩ | ⟨early, waits, sent, _, rfl, stops, seen, hsent, hok⟩
  · have hmissed : calls.any Call.showsAttachStop = false :=
      List.any_eq_false.2 fun call hcall hshows =>
        missed.change?_ne hcall (of_decide_eq_true hshows)
    refine ⟨calls, [], (List.append_nil _).symm, fun _ => missed.request,
      fun _ hcall => absurd hcall List.not_mem_nil, fun hnot => absurd rfl hnot, ?_⟩
    simp [hmissed]
  · have hseen : (early ++ waits).any Call.showsAttachStop = true := by
      rw [List.any_append, seen.any_showsAttachStop, Bool.or_true]
    refine ⟨early ++ waits, sent, (List.append_assoc ..).symm, fun call hcall => ?_, hsent,
      fun _ => hseen, hok.trans (by simp [hseen])⟩
    rcases List.mem_append.1 hcall with hcall | hcall
    · exact (stops.of_mem hcall).1
    · exact Or.inl (seen.request hcall)

/-! ## Calls that fail -/

theorem NoneFails.append {xs ys : List Call} (hx : NoneFails pid xs) (hy : NoneFails pid ys) :
    NoneFails pid (xs ++ ys) :=
  List.forall_mem_append.2 ⟨hx, hy⟩

/-- A request other than a wait does not fail if it is answered. -/
theorem NoneFails.cons_answered {request : Request} {answer : Answer} (h : NoneFails pid calls)
    (noWait : request ≠ .waitpid pid) : NoneFails pid (⟨request, .ok answer⟩ :: calls) := by
  refine List.forall_mem_cons.2 ⟨fun error hfails => ?_, h⟩
  cases hfails with
  | wait | ended => exact noWait rfl

theorem NoneFails.failsLast {before : List Call} {last : Call} (h : NoneFails pid before)
    (hlast : last.FailsWith pid error) : FailsLast pid (before ++ [last]) error :=
  ⟨before, last, rfl, h, hlast⟩

theorem FailsLast.append_left {xs ys : List Call} (h : FailsLast pid ys error)
    (hx : NoneFails pid xs) : FailsLast pid (xs ++ ys) error := by
  obtain ⟨before, last, rfl, hbefore, hlast⟩ := h
  exact ⟨xs ++ before, last, (List.append_assoc ..).symm, hx.append hbefore, hlast⟩

/-- A wait that is repeated has not failed. -/
theorem noneFails_of_idle
    (h : ∀ call ∈ calls, call.request = .waitpid pid ∧ call.reply.Idle pid) :
    NoneFails pid calls := by
  intro call hcall error hfails
  obtain ⟨hrequest, hidle⟩ := h call hcall
  cases hfails with
  | wait ends | ended ends => exact ends.not_idle hidle
  | refused errno noWait => exact noWait hrequest

theorem StopSeen.noneFails (h : StopSeen pid calls report) : NoneFails pid calls := by
  obtain ⟨reply, reporter, ⟨idle, rfl, hidle⟩, hends⟩ := h
  refine (noneFails_of_idle hidle).append fun call hcall error hfails => ?_
  obtain rfl := List.mem_singleton.1 hcall
  -- A reply ends a wait in one way, and this one has ended it with a stop.
  cases hfails with
  | wait ends | ended ends => cases hends.unique ends
  | refused errno noWait => exact noWait rfl

theorem StopMissed.failsLast (h : StopMissed pid calls error) : FailsLast pid calls error := by
  cases h with
  | failed waits ends =>
    obtain ⟨idle, rfl, hidle⟩ := waits
    exact (noneFails_of_idle hidle).failsLast (.wait ends)
  | ended waits ends =>
    obtain ⟨idle, rfl, hidle⟩ := waits
    exact (noneFails_of_idle hidle).failsLast (.ended ends)

theorem EarlyStops.noneFails (h : EarlyStops pid calls signals) : NoneFails pid calls := by
  induction h with
  | nil => exact List.forall_mem_nil _
  | cons answer seen early rest ih =>
    exact seen.noneFails.append (ih.cons_answered nofun)

theorem AttachStopMissed.failsLast (h : AttachStopMissed pid calls error) :
    FailsLast pid calls error := by
  cases h with
  | waiting stops missed => exact missed.failsLast.append_left stops.noneFails
  | restarting errno stops seen notYet =>
    have hrefused : Call.FailsWith pid ⟨.cont pid none, .error errno⟩ (.ofErrno pid errno) :=
      .refused errno nofun
    exact (seen.noneFails.failsLast hrefused).append_left stops.noneFails

theorem Requeued.noneFails (h : Requeued pid signals calls) : NoneFails pid calls := by
  induction h with
  | nil => exact List.forall_mem_nil _
  | cons answer rest ih => exact ih.cons_answered nofun

theorem AttachPhase.noneFails (h : AttachPhase pid calls (.ok ())) : NoneFails pid calls := by
  cases h with
  | reached stops seen sent => exact stops.noneFails.append (seen.noneFails.append sent.noneFails)

theorem AttachPhase.failsLast (h : AttachPhase pid calls (.error error)) :
    FailsLast pid calls error := by
  cases h with
  | missed missed => exact missed.failsLast
  | @refused _ _ _ _ _ signal errno stops seen requeued =>
    have hrefused : Call.FailsWith pid ⟨.kill pid signal, .error errno⟩ (.ofErrno pid errno) :=
      .refused errno nofun
    exact ((requeued.noneFails.failsLast hrefused).append_left seen.noneFails).append_left
      stops.noneFails

/-! ## The signals -/

/-- Only signals are sent once the attach-stop is seen, so nothing is held back from then on. -/
theorem earlySignals_eq_heldBack (h : EachBefore (Call.LeadsTo pid result) calls) :
    earlySignals calls = heldBack calls := by
  induction calls with
  | nil => rfl
  | cons call later ih =>
    obtain ⟨hcall, hlater⟩ := h
    cases hshows : call.showsAttachStop with
    | false =>
      have hcons : earlySignals (call :: later) = call.heldBack ++ earlySignals later := by
        simp [earlySignals, heldBack, hshows]
      rw [hcons, ih hlater]
      rfl
    | true =>
      have hchange : call.change? = some (.stopped .attachStop) := of_decide_eq_true hshows
      simp only [Call.LeadsTo, hchange, if_pos] at hcall
      have hnone : heldBack later = [] := heldBack_eq_nil fun next hnext report => by
        obtain ⟨signal, hrequest⟩ := hcall next hnext
        simp [Call.change?, hrequest]
      have hnow : heldBack (call :: later) = call.heldBack ++ heldBack later := rfl
      rw [hnow, hnone]
      simp [earlySignals, heldBack, hshows, Call.heldBack, hchange, StopReport.heldBack]

/-- The signals that are sent to `pid` are all there are. -/
theorem kills_eq_sentAgain
    (h : ∀ call ∈ calls, call.request = .waitpid pid ∨ call.request = .cont pid none ∨
      ∃ signal, call.request = .kill pid signal) :
    kills calls = (sentAgain pid calls).map (.kill pid) := by
  induction calls with
  | nil => rfl
  | cons call calls ih =>
    have hrest := ih fun c hc => h c (List.mem_cons_of_mem _ hc)
    unfold kills sentAgain at hrest ⊢
    rw [List.map_cons, List.filter_cons, List.flatMap_cons, List.map_append]
    rcases h call (List.mem_cons_self ..) with hrequest | hrequest | ⟨signal, hrequest⟩ <;>
      simp [hrequest, hrest, Request.isKill, Call.sent]

/-- Waiting for the attach-stop of any process restarts every stop before it and sends the signals
of these stops again, whatever the kernel replies. It goes on until one of its calls fails. -/
theorem requeues_reachAttachStop (pid : Pid) (replies : List Reply) :
    Requeues pid (reachAttachStop pid replies).calls (reachAttachStop pid replies).result := by
  have hphase := attachPhase_reachAttachStop pid replies
  generalize (reachAttachStop pid replies).calls = calls at hphase
  generalize (reachAttachStop pid replies).result = result at hphase
  have hleads := hphase.eachBefore
  have hheld : earlySignals calls = heldBack calls := earlySignals_eq_heldBack hleads
  obtain ⟨before, sent, rfl, hbefore, hsent, hseen, hok⟩ := hphase.exists_append
  have hasked : ∀ call ∈ before ++ sent, call.request = .waitpid pid ∨
      call.request = .cont pid none ∨ ∃ signal, call.request = .kill pid signal := by
    intro call hcall
    rcases List.mem_append.1 hcall with hcall | hcall
    · exact (hbefore call hcall).imp_right Or.inl
    · exact Or.inr (Or.inr (hsent call hcall))
  have hkills := kills_eq_sentAgain hasked
  have hunsent (call : Call) (hcall : call ∈ before) : call.request.isKill = false := by
    rcases hbefore call hcall with hrequest | hrequest <;> rw [hrequest] <;> rfl
  have hmem (call : Call) (hcall : call ∈ before ++ sent) (hkill : call.request.isKill = true) :
      call ∈ sent := by
    refine (List.mem_append.1 hcall).resolve_left fun hearly => ?_
    simp [hunsent call hearly] at hkill
  refine ⟨hasked, hleads, ?waitsFirst, ?seen, ?inOrder, ?all, ?succeeds, ?noneFails, ?failsLast⟩
  case waitsFirst =>
    refine ⟨before, sent, rfl, hunsent, fun call hcall => ?_⟩
    obtain ⟨signal, hrequest⟩ := hsent call hcall
    simp [Call.isWait, hrequest]
  case seen =>
    rintro ⟨call, hcall, hkill⟩
    rw [List.any_append, hseen (List.ne_nil_of_mem (hmem call hcall hkill)), Bool.true_or]
  case inOrder =>
    rw [hkills, hheld]
    exact hphase.isPrefix_sentAgain.map _
  case all =>
    rintro rfl
    rw [hkills, hheld, hphase.sentAgain_eq_heldBack]
  case succeeds =>
    have hshows : sent.any Call.showsAttachStop = false :=
      List.any_eq_false.2 fun call hcall => by
        obtain ⟨signal, hrequest⟩ := hsent call hcall
        simp [Call.showsAttachStop, Call.change?, hrequest]
    rw [hok, List.any_append, hshows, Bool.or_false]
    refine and_congr_right fun _ => ⟨fun h call hcall hkill => h call (hmem call hcall hkill), ?_⟩
    intro h call hcall
    obtain ⟨signal, hrequest⟩ := hsent call hcall
    exact h call (List.mem_append_right _ hcall) (by rw [hrequest]; rfl)
  case noneFails =>
    rintro rfl
    exact hphase.noneFails
  case failsLast =>
    rintro error rfl
    exact hphase.failsLast

end ProcTrace
