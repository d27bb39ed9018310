import ProcTrace.Proofs.Session.Guards
import ProcTrace.Proofs.Session.Lifetime

/-!
# What a session remembers of its history

A session remembers the stop that was reported last and the options that were set last. Its history
has all that was asked of it, with the results. The stop is the one that the latest wait has
reported : nothing is remembered once the tracee was restarted, or once a wait has failed, and what
is refused, what fails to restart the tracee and what only reads from it makes no difference
(`Step.recalls`). The options are those of the latest request for them that has succeeded, whatever
else was asked (`options_after`).

So neither a signal nor an event message can be that of an earlier stop
(`lastStop_and_options_of_run`).
-/

namespace ProcTrace

/-- Something that was asked of a session, with what came of it. -/
structure Deed where
  operation : Operation
  result : Except Error Outcome

/-- The deed tells where the tracee is or lets it run : a wait, unless it was refused, or a restart
that has succeeded. -/
def Deed.isMove : Deed → Bool
  | ⟨.wait, .error error⟩ => !error.isMisuse
  | ⟨.wait, .ok _⟩ | ⟨.resume _, .ok _⟩ => true
  | _ => false

/-- A wait that has reported a stop. -/
def Deed.report (stop : Stop) : Deed :=
  ⟨.wait, .ok (.stop stop)⟩

/-- The latest move of a history. -/
def latestMove (history : List Deed) : Option Deed :=
  (history.filter Deed.isMove).getLast?

theorem latestMove_append_singleton (history : List Deed) (deed : Deed) :
    latestMove (history ++ [deed]) = if deed.isMove then some deed else latestMove history := by
  unfold latestMove
  rw [List.filter_append]
  split
  next h => rw [List.filter_cons_of_pos h, List.filter_nil, List.getLast?_concat]
  next h => rw [List.filter_cons_of_neg h, List.filter_nil, List.append_nil]

/-- The options that a call has set. -/
def Call.optionsSet? (call : Call) : Option TraceOptions :=
  match call.request, call.reply with
  | .setOptions _ options, .ok _ => some options
  | _, _ => none

theorem filterMap_optionsSet?_eq_nil {calls : List Call}
    (h : ∀ call ∈ calls, ∀ pid options, call.request ≠ .setOptions pid options) :
    calls.filterMap Call.optionsSet? = [] := by
  refine List.filterMap_eq_nil_iff.2 fun call hcall => ?_
  unfold Call.optionsSet?
  split
  next pid options _ hrequest _ => exact absurd hrequest (h call hcall pid options)
  next => rfl

/-- What the opening of a session adds to its history. -/
def Opening.history (opening : Opening) (pid : Pid) (replies : List Reply) : List Deed :=
  if opening.waits then
    let waited := (Session.attaching pid).wait (opening.begin pid replies).rest
    [⟨.wait, waited.result.1.map .stop⟩]
  else []

namespace Session

variable {s t : Session} {operation : Operation} {calls : List Call}
  {result : Except Error Outcome}

/-- What was asked of the session in some turns. -/
def history : Session → List Turn → List Deed
  | _, [] => []
  | s, turn :: turns =>
    ⟨turn.operation, (s.take turn).result.1⟩ :: (s.take turn).result.2.history turns

/-! ## The last stop -/

/-- The session remembers the stop that its latest move has reported, if it has. -/
def Recalls (s : Session) (latest : Option Deed) : Prop :=
  ∀ stop, s.lastStop = some stop ↔ latest = some (.report stop)

theorem recalls_none (h : s.lastStop = none) : s.Recalls none := by
  simp [Recalls, h]

/-- Nothing is remembered after a move that has reported no stop. -/
theorem recalls_of_lastStop_eq_none {deed : Deed} (h : s.lastStop = none)
    (hdeed : ∀ stop, deed ≠ .report stop) : s.Recalls (some deed) := by
  simpa [Recalls, h] using hdeed

/-- A failed wait is a move unless it was refused, and it reports no stop. -/
theorem recalls_of_failed_wait {error : Error} {latest : Option Deed} (h : s.lastStop = none)
    (hfailed : error.isMisuse = false) :
    s.Recalls (if Deed.isMove ⟨.wait, .error error⟩ then some ⟨.wait, .error error⟩
      else latest) := by
  have hmove : Deed.isMove ⟨.wait, .error error⟩ = true := by simp [Deed.isMove, hfailed]
  rw [if_pos hmove]
  exact recalls_of_lastStop_eq_none h (by simp [Deed.report])

/-- What is no move changes nothing. -/
theorem Recalls.of_not_move {latest : Option Deed} {deed : Deed} (h : s.Recalls latest)
    (hmove : deed.isMove = false) : s.Recalls (if deed.isMove then some deed else latest) := by
  rw [hmove]
  exact h

/-- Every step keeps the memory of the latest move. -/
theorem Step.recalls (h : s.Step operation calls result t) (hs : s.Sound) {latest : Option Deed}
    (hlatest : s.Recalls latest) :
    t.Recalls (if Deed.isMove ⟨operation, result⟩ then some ⟨operation, result⟩ else latest) := by
  cases h with
  | refused what =>
    refine hlatest.of_not_move ?_
    cases operation with
    | _ => rfl
  | attachStop state => exact fun stop => by simp [Deed.isMove, Deed.report]
  | @attachFailed _ error state phase =>
    obtain ⟨after, hframe⟩ := exists_afterFailedAttach_eq s error
    rw [hframe]
    exact recalls_of_failed_wait (hs.attaching state).1 phase.isMisuse
  | @waitFailed _ _ errno state =>
    obtain ⟨after, hframe⟩ := exists_afterFailedWait_eq s errno
    rw [hframe]
    exact recalls_of_failed_wait (hs.continuing state) (Error.isMisuse_ofErrno _ _)
  | @changed _ _ _ _ _ classified state waits ends means =>
    cases classified with
    | ok c => exact fun stop => by simp [settle, Except.map, Deed.isMove, Deed.report]
    | error error => exact recalls_of_failed_wait rfl (means.isMisuse rfl)
  | resumed => exact recalls_of_lastStop_eq_none rfl (by simp [Deed.report])
  | notResumed | optionsNotSet => exact hlatest.of_not_move rfl
  | optionsSet => exact Recalls.of_not_move (s := s) hlatest rfl
  | read allowed reading =>
    refine hlatest.of_not_move ?_
    cases operation with
    | wait | resume | setOptions => cases reading
    | _ => rfl

theorem recalls_after {earlier : List Deed} (hs : s.Sound) (h : s.Recalls (latestMove earlier))
    (turns : List Turn) : (s.after turns).Recalls (latestMove (earlier ++ s.history turns)) := by
  induction turns generalizing s earlier with
  | nil =>
    rw [history, List.append_nil]
    exact h
  | cons turn turns ih =>
    have hstep := step_take s turn
    rw [history, List.append_cons]
    refine ih (hstep.sound hs) ?_
    rw [latestMove_append_singleton]
    exact hstep.recalls hs h

/-- A session that is handed over remembers the wait of its opening. -/
theorem recalls_of_perform {opening : Opening} {pid : Pid} {replies : List Reply}
    (h : (opening.perform pid replies).result = .ok s) :
    s.Recalls (latestMove (opening.history pid replies)) := by
  rcases begun_or_waited_of_perform h with ⟨hw, rfl⟩ | ⟨hw, stop, hwaited⟩
  · simp only [Opening.history, hw]
    exact recalls_none rfl
  · have hstep := step_wait (.attaching pid) (opening.begin pid replies).rest
    rw [hwaited] at hstep
    simp only [Opening.history, hw, if_true, hwaited]
    exact hstep.recalls (sound_attaching pid) (recalls_none rfl)

/-! ## What is made of the last stop -/

/-- A signal is pending if it was about to be delivered at the last stop. -/
theorem pendingSignal_eq_some_iff {signal : Signal} :
    s.pendingSignal = some signal ↔ s.lastStop = some (.signalDelivery signal) := by
  unfold pendingSignal
  split
  next caught h => simp [h]
  next h => simpa using h signal

/-- The message of an event is asked for only at that event. -/
theorem Step.lastStop_of_eventMessage (h : s.Step operation calls result t) {call : Call}
    (hcall : call ∈ calls) {pid : Pid} (hrequest : call.request = .eventMessage pid) :
    ∃ kind, s.lastStop = some (.event kind) := by
  have hwait := (h.stopped_of_needsStop hcall (by rw [hrequest]; rfl)).2
  cases h with
  | refused => cases hcall
  | attachStop | attachFailed | waitFailed | changed => exact absurd rfl hwait
  | resumed | notResumed | optionsSet | optionsNotSet =>
    rw [List.mem_singleton.1 hcall] at hrequest
    cases hrequest
  | read allowed reading reads =>
    have hreads := reads call hcall
    rw [hrequest] at hreads
    cases operation with
    | eventMessage =>
      have hevent : s.lastStop.any Stop.isEvent = true := allowed.2
      cases hstop : s.lastStop with
      | none => simp [hstop] at hevent
      | some stop =>
        cases stop with
        | event kind => exact ⟨kind, rfl⟩
        | _ => simp [hstop, Stop.isEvent] at hevent
    | _ => simp [Operation.ReadsBy] at hreads

/-! ## The options -/

/-- The options are set by a request for them that succeeds, and by nothing else. -/
theorem Step.options_eq (h : s.Step operation calls result t) :
    t.options = (calls.filterMap Call.optionsSet?).getLast?.or s.options := by
  have hwait (hoperation : operation = .wait) : calls.filterMap Call.optionsSet? = [] := by
    refine filterMap_optionsSet?_eq_nil fun call hcall pid options hrequest => ?_
    exact (h.stopped_of_needsStop hcall (by rw [hrequest]; rfl)).2 hoperation
  cases h with
  | refused | resumed | notResumed | optionsSet | optionsNotSet => rfl
  | attachStop =>
    rw [hwait rfl]
    rfl
  | @attachFailed _ error =>
    obtain ⟨state, hframe⟩ := exists_afterFailedAttach_eq s error
    rw [hwait rfl, hframe]
    rfl
  | @waitFailed _ _ errno =>
    obtain ⟨state, hframe⟩ := exists_afterFailedWait_eq s errno
    rw [hwait rfl, hframe]
    rfl
  | @changed _ _ _ _ _ classified =>
    rw [hwait rfl]
    cases classified with
    | ok | error => rfl
  | read allowed reading reads =>
    have hnone : calls.filterMap Call.optionsSet? = [] := by
      refine filterMap_optionsSet?_eq_nil fun call hcall pid options hrequest => ?_
      have hreads := reads call hcall
      rw [hrequest] at hreads
      cases operation with
      | _ => simp [Operation.ReadsBy] at hreads
    rw [hnone]
    rfl

theorem options_after (s : Session) (turns : List Turn) :
    (s.after turns).options =
      ((s.callsOf turns).filterMap Call.optionsSet?).getLast?.or s.options := by
  induction turns generalizing s with
  | nil => rfl
  | cons turn turns ih =>
    rw [after, ih, (step_take s turn).options_eq, callsOf, List.filterMap_append,
      List.getLast?_append, Option.or_assoc]

/-! ## Every run -/

/-- In every run of a session, the last stop is the one that the latest move has reported, and none
if that was a restart or a wait that failed. So a signal is pending, or the message of an event
asked for, only if the latest move has reported it, and no message is asked for when the session
begins or ends. The options are those of the latest request for them that has succeeded, and none if
there was none. -/
theorem lastStop_and_options_of_run {opening : Opening} {pid : Pid} {replies : List Reply}
    (h : (opening.perform pid replies).result = .ok s) (turns : List Turn) :
    let latest := latestMove (opening.history pid replies ++ s.history turns)
    let opened := (opening.perform pid replies).calls
    (∀ stop, (s.after turns).lastStop = some stop ↔ latest = some (.report stop)) ∧
      (∀ signal, (s.after turns).pendingSignal = some signal ↔
        latest = some (.report (.signalDelivery signal))) ∧
      (∀ turn, ∀ call ∈ ((s.after turns).take turn).calls, ∀ target,
        call.request = .eventMessage target → ∃ kind, latest = some (.report (.event kind))) ∧
      (∀ call ∈ opened, ∀ target, call.request ≠ .eventMessage target) ∧
      (∀ (closing : Closing) (more : List Reply), ∀ call ∈ closing.calls (s.after turns) more,
        ∀ target, call.request ≠ .eventMessage target) ∧
      (s.after turns).options =
        ((opened ++ s.callsOf turns).filterMap Call.optionsSet?).getLast? := by
  intro latest opened
  have hlast : (s.after turns).Recalls latest :=
    recalls_after (sound_of_perform h) (recalls_of_perform h) turns
  have hopened (call : Call) (hcall : call ∈ opened) : call.request.needsStop = false :=
    opening.asks_perform pid replies call hcall
  refine ⟨hlast, fun signal => ?_, fun turn call hcall target hrequest => ?_,
    fun call hcall target hrequest => ?_, fun closing more call hcall target hrequest => ?_, ?_⟩
  · rw [pendingSignal_eq_some_iff]
    exact hlast _
  · obtain ⟨kind, hkind⟩ := (step_take _ turn).lastStop_of_eventMessage hcall hrequest
    exact ⟨kind, (hlast _).1 hkind⟩
  · have hneeds := hopened call hcall
    rw [hrequest] at hneeds
    cases hneeds
  · have hneeds := (closing.dropped _ more).needsStop hcall
    rw [hrequest] at hneeds
    cases hneeds
  · have hnone : s.options = none := by
      rcases eq_of_perform h with rfl | rfl <;> rfl
    have hquiet : opened.filterMap Call.optionsSet? = [] := by
      refine filterMap_optionsSet?_eq_nil fun call hcall target options hrequest => ?_
      have hneeds := hopened call hcall
      rw [hrequest] at hneeds
      cases hneeds
    rw [options_after, hnone, Option.or_none, List.filterMap_append, hquiet, List.nil_append]

/-- A signal is about to be delivered, and is still pending after options were set, could not be set
again, the tracee could not be restarted and a wait was refused. -/
theorem pendingSignal_after_failed_restart :
    let opened : List Reply := [.ok { status := 0x137f }]
    let s : Session := { Session.attaching ⟨5⟩ with state := .stopped, lastStop := some .attach }
    let turns : List Turn := [⟨.resume none, [.ok {}]⟩, ⟨.wait, [.ok { status := 0x0a7f }]⟩,
      ⟨.setOptions .default, [.ok {}]⟩, ⟨.setOptions {}, [.error .eperm]⟩,
      ⟨.resume (some .usr1), [.error .esrch]⟩, ⟨.wait, []⟩]
    (Opening.adoptStopped.perform ⟨5⟩ opened).result = .ok s ∧
      (s.after turns).pendingSignal = some .usr1 ∧
      latestMove (Opening.adoptStopped.history ⟨5⟩ opened ++ s.history turns) =
        some (.report (.signalDelivery .usr1)) ∧
      (s.after turns).options = some .default := by
  intro opened s turns
  have hopened : (Opening.adoptStopped.perform ⟨5⟩ opened).result = .ok s :=
    eq_ok_of_toOption (by decide +kernel)
  obtain ⟨-, hpending, -, -, -, hoptions⟩ := lastStop_and_options_of_run hopened turns
  have hsignal : (s.after turns).pendingSignal = some .usr1 := by decide +kernel
  refine ⟨hopened, hsignal, (hpending .usr1).1 hsignal, ?_⟩
  rw [hoptions]
  decide +kernel

end Session

end ProcTrace
