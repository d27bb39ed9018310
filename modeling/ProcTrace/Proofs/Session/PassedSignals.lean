import ProcTrace.Proofs.Session.History

/-!
# Signals that are passed on

A tracer that restarts its tracee with the pending signal is to be transparent : the tracee gets the
signals that it would have got without one. Between two moves of a session at most one signal is
waiting, from the stop at which it was about to be delivered up to the restart that carries it
(`Passed`). A restart that fails leaves it waiting, and all other stops leave nothing to wait.

So along a run the signals carried are those of the delivery stops that a restart follows, each once
and in order (`carried_callsOf`), and a restart from any other stop carries none
(`carried_eq_deliveries_of_run`).
-/

namespace ProcTrace

/-- The signal that a restart carries, if it is one that succeeded. -/
def Call.carried? (call : Call) : Option Signal :=
  match call.request, call.reply with
  | .syscall _ signal, .ok _ => signal
  | _, _ => none

namespace Deed

/-- A restart that has succeeded. -/
def isRestart : Deed → Bool
  | ⟨.resume _, .ok _⟩ => true
  | _ => false

/-- The signal that was about to be delivered at the stop that a wait has reported. -/
def delivery? : Deed → Option Signal
  | ⟨.wait, .ok (.stop (.signalDelivery signal))⟩ => some signal
  | _ => none

end Deed

/-- A waiting signal, if the tracee is restarted in the rest of its history. -/
def sentOn (waiting : Option Signal) (later : List Deed) : List Signal :=
  if later.any Deed.isRestart then waiting.toList else []

/-- The signals of the delivery stops in a history that a restart follows, in order. -/
def deliveries : List Deed → List Signal
  | [] => []
  | deed :: later => sentOn deed.delivery? later ++ deliveries later

theorem sentOn_none (later : List Deed) : sentOn none later = [] := by
  unfold sentOn
  split <;> rfl

theorem sentOn_cons_of_restart {deed : Deed} (h : deed.isRestart = true) (waiting : Option Signal)
    (later : List Deed) : sentOn waiting (deed :: later) = waiting.toList := by
  rw [sentOn, List.any_cons, h, Bool.true_or, if_pos rfl]

theorem sentOn_cons_of_not_restart {deed : Deed} (h : deed.isRestart = false)
    (waiting : Option Signal) (later : List Deed) :
    sentOn waiting (deed :: later) = sentOn waiting later := by
  rw [sentOn, List.any_cons, h, Bool.false_or, sentOn]

/-- What comes before is of no account if no delivery stop was reported in it. -/
theorem deliveries_append_of_no_delivery {earlier : List Deed}
    (h : ∀ deed ∈ earlier, deed.delivery? = none) (later : List Deed) :
    deliveries (earlier ++ later) = deliveries later := by
  induction earlier with
  | nil => rfl
  | cons deed earlier ih =>
    rw [List.cons_append, deliveries, h deed (List.mem_cons_self ..), sentOn_none,
      ih fun other hother => h other (List.mem_cons_of_mem _ hother), List.nil_append]

theorem filterMap_carried?_eq_nil {calls : List Call}
    (h : ∀ call ∈ calls, ∀ pid signal, call.request ≠ .syscall pid signal) :
    calls.filterMap Call.carried? = [] := by
  refine List.filterMap_eq_nil_iff.2 fun call hcall => ?_
  unfold Call.carried?
  split
  next pid signal _ hrequest _ => exact absurd hrequest (h call hcall pid signal)
  next => rfl

/-! ## One step -/

/-- What a deed makes of the signal that was waiting before it, with the signals that it carries and
the signal that is waiting afterwards. -/
inductive Passed (deed : Deed) : Option Signal → List Signal → Option Signal → Prop
  /-- A restart carries the signal, and nothing is waiting afterwards. -/
  | restart (waiting : Option Signal) (restarts : deed.isRestart = true)
      (reports : deed.delivery? = none) : Passed deed waiting waiting.toList none
  /-- Nothing was waiting. A signal that is reported as about to be delivered is from now on. -/
  | reported (restarts : deed.isRestart = false) : Passed deed none [] deed.delivery?
  /-- The signal is still waiting. -/
  | other (waiting : Option Signal) (restarts : deed.isRestart = false)
      (reports : deed.delivery? = none) : Passed deed waiting [] waiting

/-- The signals that a deed carries, and those that are carried later on. -/
theorem Passed.sentOn_eq {deed : Deed} {waiting next : Option Signal} {carried : List Signal}
    (h : Passed deed waiting carried next) (later : List Deed) :
    carried ++ sentOn next later =
      sentOn waiting (deed :: later) ++ sentOn deed.delivery? later := by
  cases h with
  | restart _ restarts reports =>
    rw [sentOn_cons_of_restart restarts, reports]
  | reported restarts =>
    rw [sentOn_cons_of_not_restart restarts, sentOn_none]
  | other _ restarts reports =>
    rw [sentOn_cons_of_not_restart restarts, reports, sentOn_none, List.append_nil,
      List.nil_append]

/-- The operation, if it is a restart, passes the pending signal on. -/
def Operation.passesOn (s : Session) : Operation → Bool
  | resume signal => signal = s.pendingSignal
  | _ => true

namespace Session

variable {s t : Session} {operation : Operation} {calls : List Call}
  {result : Except Error Outcome}

theorem pendingSignal_of_lastStop_eq_none (h : s.lastStop = none) : s.pendingSignal = none := by
  rw [pendingSignal, h]

/-- Nothing is restarted while the session waits. -/
theorem Step.carried_of_wait (h : s.Step .wait calls result t) :
    calls.filterMap Call.carried? = [] := by
  refine filterMap_carried?_eq_nil fun call hcall pid signal hrequest => ?_
  exact (h.stopped_of_needsStop hcall (by rw [hrequest]; rfl)).2 rfl

/-- The signal that a change leaves to wait is the one that is reported. -/
theorem pendingSignal_settle (s : Session) (classified : Except Error (Stop × Bool)) :
    (s.settle classified).pendingSignal =
      Deed.delivery? ⟨.wait, (classified.map Prod.fst).map .stop⟩ := by
  cases classified with
  | error error => rfl
  | ok c =>
    obtain ⟨stop, inSyscall⟩ := c
    cases stop with
    | _ => rfl

/-- Every step passes the waiting signal on, if its operation does. -/
theorem Step.passed (h : s.Step operation calls result t) (hs : s.Sound)
    (hpass : operation.passesOn s = true) :
    Passed ⟨operation, result⟩ s.pendingSignal (calls.filterMap Call.carried?) t.pendingSignal := by
  cases h with
  | refused =>
    cases operation with
    | _ => exact .other _ rfl rfl
  | attachStop state phase =>
    have hnone := pendingSignal_of_lastStop_eq_none (hs.attaching state).1
    rw [(Step.attachStop state phase).carried_of_wait, hnone]
    exact .other none rfl rfl
  | @attachFailed _ error state phase =>
    obtain ⟨after, hframe⟩ := exists_afterFailedAttach_eq s error
    rw [(Step.attachFailed state phase).carried_of_wait, hframe]
    exact .other s.pendingSignal rfl rfl
  | @waitFailed _ _ errno state waits ends =>
    obtain ⟨after, hframe⟩ := exists_afterFailedWait_eq s errno
    rw [(Step.waitFailed state waits ends).carried_of_wait, hframe]
    exact .other s.pendingSignal rfl rfl
  | changed state waits ends means =>
    have hnone := pendingSignal_of_lastStop_eq_none (hs.continuing state)
    rw [(Step.changed state waits ends means).carried_of_wait, hnone, pendingSignal_settle]
    exact .reported rfl
  | @resumed signal answer state =>
    obtain rfl : signal = s.pendingSignal := of_decide_eq_true hpass
    have hcarried :
        [Call.mk (.syscall s.pid s.pendingSignal) (.ok answer)].filterMap Call.carried? =
          s.pendingSignal.toList := by
      cases s.pendingSignal with
      | none | some => rfl
    rw [hcarried]
    exact .restart _ rfl rfl
  | notResumed => exact .other _ rfl rfl
  | optionsSet => exact .other s.pendingSignal rfl rfl
  | optionsNotSet => exact .other _ rfl rfl
  | read allowed reading reads =>
    have hcarried : calls.filterMap Call.carried? = [] := by
      refine filterMap_carried?_eq_nil fun call hcall pid signal hrequest => ?_
      have hreads := reads call hcall
      rw [hrequest] at hreads
      cases operation with
      | _ => simp [Operation.ReadsBy] at hreads
    rw [hcarried]
    cases operation with
    | wait | resume | setOptions => cases reading
    | _ => exact .other _ rfl rfl

/-! ## Every run -/

/-- Every restart in some turns passes the pending signal on. -/
def passesOn : Session → List Turn → Bool
  | _, [] => true
  | s, turn :: turns => turn.operation.passesOn s && (s.take turn).result.2.passesOn turns

/-- The signals that are carried in some turns are the one that was waiting before and those that
are reported, as far as a restart follows. -/
theorem carried_callsOf (hs : s.Sound) {turns : List Turn} (hpass : s.passesOn turns = true) :
    (s.callsOf turns).filterMap Call.carried? =
      sentOn s.pendingSignal (s.history turns) ++ deliveries (s.history turns) := by
  induction turns generalizing s with
  | nil => rfl
  | cons turn turns ih =>
    obtain ⟨hnow, hlater⟩ := Bool.and_eq_true_iff.1 hpass
    have hstep := step_take s turn
    rw [callsOf, List.filterMap_append, ih (hstep.sound hs) hlater, ← List.append_assoc,
      (hstep.passed hs hnow).sentOn_eq, List.append_assoc]
    rfl

/-- A turn in such a run passes the pending signal on. -/
theorem passesOn_of_append {before rest : List Turn} {turn : Turn}
    (h : s.passesOn (before ++ turn :: rest) = true) :
    turn.operation.passesOn (s.after before) = true := by
  induction before generalizing s with
  | nil => exact (Bool.and_eq_true_iff.1 h).1
  | cons first before ih => exact ih (Bool.and_eq_true_iff.1 h).2

/-- A restart carries the signal that it was given. -/
theorem Step.resume_of_syscall (h : s.Step operation calls result t) {call : Call}
    (hcall : call ∈ calls) {pid : Pid} {signal : Option Signal}
    (hrequest : call.request = .syscall pid signal) : operation = .resume signal := by
  have hwait := (h.stopped_of_needsStop hcall (by rw [hrequest]; rfl)).2
  cases h with
  | refused => cases hcall
  | attachStop | attachFailed | waitFailed | changed => exact absurd rfl hwait
  | resumed | notResumed =>
    rw [List.mem_singleton.1 hcall] at hrequest
    cases hrequest
    rfl
  | optionsSet | optionsNotSet =>
    rw [List.mem_singleton.1 hcall] at hrequest
    cases hrequest
  | read allowed reading reads =>
    have hreads := reads call hcall
    rw [hrequest] at hreads
    cases operation with
    | _ => simp [Operation.ReadsBy] at hreads

/-- A restart that fails leaves the session as it is. -/
theorem Step.eq_of_failed_resume {signal : Option Signal} {error : Error}
    (h : s.Step (.resume signal) calls (.error error) t) : t = s := by
  generalize hresult : (Except.error error : Except Error Outcome) = result at h
  cases h with
  | refused | notResumed => rfl
  | resumed => cases hresult
  | read allowed reading => cases reading

/-- The wait of an opening reports no delivery stop. -/
theorem delivery?_eq_none_of_opening {opening : Opening} {pid : Pid} {replies : List Reply} :
    ∀ deed ∈ opening.history pid replies, deed.delivery? = none := by
  intro deed hdeed
  unfold Opening.history at hdeed
  split at hdeed
  next =>
    rw [List.mem_singleton.1 hdeed]
    rcases wait_attaching_cases (s := .attaching pid) rfl (opening.begin pid replies).rest with
      ⟨_, hr⟩ | ⟨error, _, hr⟩
    · rw [hr]
      rfl
    · rw [hr]
      rfl
  next => cases hdeed

/-- In every run of a session in which all restarts are given the pending signal, the signals that
successful restarts carry are those of the delivery stops that were reported and followed by a
successful restart, each once and in order. A restart carries a signal exactly if the latest move
has reported it as about to be delivered, so it carries none from any other stop, whether or not
that could be classified. A restart that fails leaves the session as it was, so the next one carries
the same. -/
theorem carried_eq_deliveries_of_run {opening : Opening} {pid : Pid} {replies : List Reply}
    (h : (opening.perform pid replies).result = .ok s) {turns : List Turn}
    (hpass : s.passesOn turns = true) :
    let begun := opening.history pid replies
    ((opening.perform pid replies).calls ++ s.callsOf turns).filterMap Call.carried? =
        deliveries (begun ++ s.history turns) ∧
      (∀ before turn rest, turns = before ++ turn :: rest →
        let latest := latestMove (begun ++ s.history before)
        ∀ call ∈ ((s.after before).take turn).calls, ∀ target signal,
          call.request = .syscall target signal →
            (∀ caught, signal = some caught ↔ latest = some (.report (.signalDelivery caught))) ∧
              ((∀ caught, latest ≠ some (.report (.signalDelivery caught))) →
                signalArgument signal = 0)) ∧
      ∀ before signal more rest error, turns = before ++ ⟨.resume signal, more⟩ :: rest →
        ((s.after before).take ⟨.resume signal, more⟩).result.1 = .error error →
        s.after (before ++ [⟨.resume signal, more⟩]) = s.after before := by
  intro begun
  have hsound := sound_of_perform h
  refine ⟨?carried, ?restarts, ?failed⟩
  case carried =>
    have hnone : s.pendingSignal = none := by
      rcases eq_of_perform h with rfl | rfl <;> rfl
    have hquiet : (opening.perform pid replies).calls.filterMap Call.carried? = [] := by
      refine filterMap_carried?_eq_nil fun call hcall target signal hrequest => ?_
      have hneeds : call.request.needsStop = false := opening.asks_perform pid replies call hcall
      rw [hrequest] at hneeds
      cases hneeds
    rw [List.filterMap_append, hquiet, carried_callsOf hsound hpass, hnone, sentOn_none,
      deliveries_append_of_no_delivery delivery?_eq_none_of_opening]
    rfl
  case restarts =>
    intro before turn rest hturns latest call hcall target signal hrequest
    have hoperation := (step_take (s.after before) turn).resume_of_syscall hcall hrequest
    rw [hturns] at hpass
    have hpending := passesOn_of_append hpass
    rw [hoperation] at hpending
    obtain rfl : signal = (s.after before).pendingSignal := of_decide_eq_true hpending
    have hcaught (caught : Signal) : (s.after before).pendingSignal = some caught ↔
        latest = some (.report (.signalDelivery caught)) := by
      rw [pendingSignal_eq_some_iff]
      exact recalls_after hsound (recalls_of_perform h) before _
    refine ⟨hcaught, fun hother => ?_⟩
    cases hsignal : (s.after before).pendingSignal with
    | none => rfl
    | some caught => exact absurd ((hcaught caught).1 hsignal) (hother caught)
  case failed =>
    intro before signal more rest error hturns herror
    have hstep := step_take (s.after before) ⟨.resume signal, more⟩
    rw [herror] at hstep
    rw [after_append]
    exact hstep.eq_of_failed_resume

/-- A signal is about to be delivered. The tracee cannot be restarted at first, and then is, with
the signal. At its next stop it has entered a syscall, and is restarted with none. It is stopped by
one more signal in the end, which no restart follows. -/
theorem carried_after_failed_restart :
    let opened : List Reply := [.ok { status := 0x137f }]
    let s : Session := { Session.attaching ⟨5⟩ with state := .stopped, lastStop := some .attach }
    let turns : List Turn := [⟨.resume none, [.ok {}]⟩, ⟨.wait, [.ok { status := 0x0a7f }]⟩,
      ⟨.resume (some .usr1), [.error .esrch]⟩, ⟨.resume (some .usr1), [.ok {}]⟩,
      ⟨.wait, [.ok { status := 0x857f }]⟩, ⟨.resume none, [.ok {}]⟩,
      ⟨.wait, [.ok { status := 0x0f7f }]⟩]
    (Opening.adoptStopped.perform ⟨5⟩ opened).result = .ok s ∧ s.passesOn turns = true ∧
      deliveries (Opening.adoptStopped.history ⟨5⟩ opened ++ s.history turns) = [.usr1] := by
  intro opened s turns
  have hopened : (Opening.adoptStopped.perform ⟨5⟩ opened).result = .ok s :=
    eq_ok_of_toOption (by decide +kernel)
  have hpass : s.passesOn turns = true := by decide +kernel
  refine ⟨hopened, hpass, ?_⟩
  rw [← (carried_eq_deliveries_of_run hopened hpass).1]
  decide +kernel

end Session

end ProcTrace
