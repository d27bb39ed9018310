import ProcTrace.Proofs.Session.Closing

/-!
# What is refused, and when

Every operation has states in which it is allowed (`Operation.Allowed`). In any other state it is
refused : nothing is asked of the kernel, no reply is taken and nothing is logged, the session stays
as it is, and the error names the process and the state (`perform_of_not_allowed`). An operation
that is allowed can fail, but never with such an error (`isMisuse_eq_false_of_allowed`), so the
error tells a refusal from a failure of the kernel. A session that refuses to detach is dropped.

The requests that need a stopped tracee are made by allowed operations alone, and neither while the
session is waited for nor when it begins or ends (`Step.stopped_of_needsStop`).
`refused_iff_not_allowed` puts all of this together.
-/

namespace ProcTrace

variable {α : Type}

/-! ## Failures that are no refusals -/

/-- The attempt never fails because of the state of a session. -/
abbrev Attempt.Unrefused (x : Attempt α) : Prop :=
  x.Fails fun error => error.isMisuse = false

section

variable (pid : Pid)

theorem RegisterField.unrefused_read (f : RegisterField) : Attempt.Unrefused (f.read pid) := by
  refine (Attempt.fails_askOr (Error.isMisuse_ofErrno pid) _).bind fun answer =>
    (Attempt.fails_note _).bind fun _ => ?_
  split
  · exact Attempt.fails_throw rfl
  · split
    · exact Attempt.fails_pure _
    · exact Attempt.fails_throw rfl

theorem SeccompFilter.isMisuse_readError (index : Nat) (errno : Errno) :
    (SeccompFilter.readError pid index errno).isMisuse = false := by
  unfold SeccompFilter.readError
  split
  · rfl
  · exact Error.isMisuse_ofErrno pid errno

theorem SeccompFilter.unrefused_read (index : Nat) :
    Attempt.Unrefused (SeccompFilter.read pid index) := by
  have hask (request : Request) :
      Attempt.Unrefused (Attempt.askOr (SeccompFilter.readError pid index) request) :=
    Attempt.fails_askOr (SeccompFilter.isMisuse_readError pid index) request
  refine (hask _).bind fun counted => (Attempt.fails_note _).bind fun _ =>
    (hask _).bind fun copied => ?_
  split
  · exact (Attempt.fails_note _).bind fun _ => Attempt.fails_pure _
  · exact Attempt.fails_throw rfl

/-- No filter of a chain is refused, and the end of the chain is no error. -/
theorem SeccompFilter.unrefused_readAll (limit : Option Nat) :
    Attempt.Unrefused (SeccompFilter.readAll pid limit) := by
  refine Attempt.Fails.loop (fun earlier replies error he => ?_) []
  by_cases hlimit : limit = some earlier.length
  · rw [SeccompFilter.readNext_of_limit pid hlimit] at he
    cases he
  · rw [SeccompFilter.readNext_of_not_limit pid hlimit, Exchange.result_withResult] at he
    cases hr : (SeccompFilter.read pid earlier.length replies).result with
    | ok filter =>
      rw [hr] at he
      cases he
    | error failure =>
      -- The end of the chain is no failure, and every other error is passed on.
      have hfailure := SeccompFilter.unrefused_read pid earlier.length replies failure hr
      rw [hr] at he
      cases failure with
      | noSuchFilter => cases he
      | _ =>
        cases he
        exact hfailure

theorem Tracee.unrefused_eventMessage : Attempt.Unrefused (Tracee.eventMessage pid) :=
  (Attempt.fails_askOr (Error.isMisuse_ofErrno pid) _).bind fun _ => Attempt.fails_pure _

/-- Peeking at a word fails with an error of the kernel, if it fails. -/
theorem Tracee.unrefused_peek (address : UInt64) :
    Attempt.Unrefused (Tracee.peek pid address) := by
  intro replies error he
  have hword (reply : Reply) (h : Tracee.wordOfReply pid reply = .error error) :
      error.isMisuse = false := by
    cases reply with
    | ok answer => cases h
    | error errno =>
      simp only [Tracee.wordOfReply] at h
      split at h
      · cases h
      · cases h
        exact Error.isMisuse_ofErrno pid errno
  exact hword _ he

theorem Machine.unrefused_ofExecutable : Attempt.Unrefused (Machine.ofExecutable pid) := by
  intro replies error he
  have hopened (opened : Except Errno Answer) (h : Machine.ofOpened pid opened = .error error) :
      error.isMisuse = false := by
    cases opened with
    | error errno =>
      cases h
      rfl
    | ok answer =>
      simp only [Machine.ofOpened, Machine.ofFile] at h
      split at h
      · cases h
        rfl
      · split at h
        · cases h
        · cases h
          rfl
      · cases h
        rfl
  exact hopened _ he

end

section

variable {pid : Pid} {calls : List Call} {error : Error}

theorem StopMissed.isMisuse (h : StopMissed pid calls error) : error.isMisuse = false := by
  cases h with
  | failed => exact Error.isMisuse_ofErrno _ _
  | ended => rfl

/-- A wait for the attach-stop fails with errors of the kernel, or with the end of the tracee. -/
theorem AttachPhase.isMisuse (h : AttachPhase pid calls (.error error)) :
    error.isMisuse = false := by
  cases h with
  | missed missed =>
    cases missed with
    | waiting stops missed => exact missed.isMisuse
    | restarting => exact Error.isMisuse_ofErrno _ _
  | refused => exact Error.isMisuse_ofErrno _ _

end

/-! ## Requests that need a stopped tracee -/

/-- The request restarts the tracee for a session, sets its options or reads from it. -/
def Request.needsStop : Request → Bool
  | .syscall _ _ | .setOptions _ _ | .eventMessage _ | .registerSet _ _ | .seccompFilter _ _ _
  | .peekData _ _ => true
  | _ => false

section

variable {pid : Pid} {calls : List Call} {call : Call}

theorem StopSeen.needsStop {report : StopReport} (h : StopSeen pid calls report)
    (hcall : call ∈ calls) : call.request.needsStop = false := by
  rw [h.request hcall]
  rfl

theorem StopMissed.needsStop {error : Error} (h : StopMissed pid calls error)
    (hcall : call ∈ calls) : call.request.needsStop = false := by
  rw [h.request hcall]
  rfl

theorem EarlyStops.needsStop {signals : List Signal} (h : EarlyStops pid calls signals)
    (hcall : call ∈ calls) : call.request.needsStop = false := by
  rcases (h.of_mem hcall).1 with hrequest | hrequest
  · rw [hrequest]
    rfl
  · rw [hrequest]
    rfl

theorem Requeued.needsStop {signals : List Signal} (h : Requeued pid signals calls)
    (hcall : call ∈ calls) : call.request.needsStop = false := by
  obtain ⟨_, _, rfl⟩ := h.of_mem hcall
  rfl

/-- Waiting for the attach-stop needs no stopped tracee. -/
theorem AttachPhase.needsStop {result : Except Error Unit} (h : AttachPhase pid calls result)
    (hcall : call ∈ calls) : call.request.needsStop = false := by
  cases h with
  | missed missed =>
    cases missed with
    | waiting stops missed =>
      rcases List.mem_append.1 hcall with hcall | hcall
      · exact stops.needsStop hcall
      · exact missed.needsStop hcall
    | restarting errno stops seen =>
      simp only [List.mem_append, List.mem_singleton] at hcall
      rcases hcall with hcall | hcall | rfl
      · exact stops.needsStop hcall
      · exact seen.needsStop hcall
      · rfl
  | reached stops seen sent =>
    simp only [List.mem_append] at hcall
    rcases hcall with hcall | hcall | hcall
    · exact stops.needsStop hcall
    · exact seen.needsStop hcall
    · exact sent.needsStop hcall
  | refused stops seen sent =>
    simp only [List.mem_append, List.mem_singleton] at hcall
    rcases hcall with hcall | hcall | hcall | rfl
    · exact stops.needsStop hcall
    · exact seen.needsStop hcall
    · exact sent.needsStop hcall
    · rfl

end

namespace Session

/-! ## Refusals -/

/-- A reading operation that needs a stopped tracee is refused otherwise. -/
theorem reading_of_not_stopped {s : Session} (h : s.state ≠ .stopped) (wrap : α → Outcome)
    (what : String) (x : Attempt α) (replies : List Reply) :
    Operation.reading s wrap (s.whenStopped what x) replies =
      ⟨(.error (s.refusal what), s), [], [], replies⟩ := by
  rw [whenStopped_of_not_stopped h]
  rfl

/-- So is one that changes the session. -/
theorem changing_of_not_stopped {s : Session} (h : s.state ≠ .stopped) (wrap : α → Outcome)
    (what : String) (x : Attempt α) (next : Session) (replies : List Reply) :
    Operation.changing wrap (s.advance (s.whenStopped what x) next) replies =
      ⟨(.error (s.refusal what), s), [], [], replies⟩ := by
  rw [whenStopped_of_not_stopped h]
  rfl

/-- An operation that is not allowed makes no call, takes no reply, and leaves the session as it
is. -/
theorem perform_of_not_allowed {s : Session} {operation : Operation} (h : ¬operation.Allowed s)
    (replies : List Reply) : ∃ what,
      operation.perform s replies = ⟨(.error (s.refusal what), s), [], [], replies⟩ := by
  cases operation with
  | wait =>
    have hwait : s.wait = pure (.error (s.refusal "wait on"), s) := by
      cases hs : s.state with
      | attaching | continuing => simp [Operation.Allowed, hs] at h
      | detached | stopped | exited => simp only [wait, hs]
    refine ⟨"wait on", ?_⟩
    rw [Operation.perform, hwait]
    rfl
  | resume signal => exact ⟨_, changing_of_not_stopped h _ _ _ _ _⟩
  | setOptions options => exact ⟨_, changing_of_not_stopped h _ _ _ _ _⟩
  | eventMessage =>
    by_cases hs : s.state = .stopped
    · have hevent : ¬s.lastStop.any Stop.isEvent = true := fun hevent => h ⟨hs, hevent⟩
      refine ⟨"read event message outside ptrace-event-stop of", ?_⟩
      rw [Operation.perform, eventMessage, whenStopped_of_stopped hs, if_neg hevent]
      rfl
    · exact ⟨_, reading_of_not_stopped hs _ _ _ _⟩
  | readRegister field => exact ⟨_, reading_of_not_stopped h _ _ _ _⟩
  | filterAt index => exact ⟨_, reading_of_not_stopped h _ _ _ _⟩
  | filters limit => exact ⟨_, reading_of_not_stopped h _ _ _ _⟩
  | peek address => exact ⟨_, reading_of_not_stopped h _ _ _ _⟩
  | machine => exact absurd trivial h

variable {s t : Session} {operation : Operation} {calls : List Call}
  {result : Except Error Outcome} {error : Error}

/-- A change that cannot be classified is no refusal. -/
theorem Classified.isMisuse {change : Change} {classified : Except Error (Stop × Bool)}
    (h : s.Classified change calls classified) (he : classified = .error error) :
    error.isMisuse = false := by
  cases h with
  | ended | enter | leave | event | delivery | probedDelivery | group => cases he
  | unknownEvent =>
    cases he
    rfl
  | probeFailed =>
    cases he
    exact Error.isMisuse_ofErrno _ _

/-- An operation that can change the session and is allowed is not refused. -/
theorem Step.isMisuse (h : s.Step operation calls (.error error) t) (hallowed : operation.Allowed s)
    (hchanging : operation.isReading = false) : error.isMisuse = false := by
  generalize hresult : (Except.error error : Except Error Outcome) = result at h
  cases h with
  | refused what forbidden => exact absurd hallowed forbidden
  | attachStop | resumed | optionsSet => cases hresult
  | attachFailed state phase =>
    cases hresult
    exact phase.isMisuse
  | waitFailed | notResumed | optionsNotSet =>
    cases hresult
    exact Error.isMisuse_ofErrno _ _
  | @changed _ _ _ _ _ classified state waits ends means =>
    cases classified with
    | ok c => cases hresult
    | error failure =>
      cases hresult
      exact means.isMisuse rfl
  | read allowed reading => simp [reading] at hchanging

/-- A reading operation fails with the errors of what carries it out. -/
theorem isMisuse_reading {x : Attempt α} (hx : x.Unrefused) (wrap : α → Outcome)
    {replies : List Reply}
    (he : (Operation.reading s wrap x replies).result.1 = .error error) :
    error.isMisuse = false := by
  rw [(reading_apply s wrap x replies).2] at he
  cases hr : (x replies).result with
  | ok a => simp [hr, Except.map] at he
  | error failure =>
    obtain rfl : failure = error := by simpa [hr, Except.map] using he
    exact hx replies failure hr

theorem unrefused_whenStopped {x : Attempt α} (hx : x.Unrefused) (h : s.state = .stopped)
    (what : String) : (s.whenStopped what x).Unrefused := by
  rw [whenStopped_of_stopped h]
  exact hx

/-- An operation that is allowed is not refused. -/
theorem isMisuse_eq_false_of_allowed (h : operation.Allowed s) {replies : List Reply}
    (he : (operation.perform s replies).result.1 = .error error) : error.isMisuse = false := by
  have hstep := step_perform s operation replies
  rw [he] at hstep
  cases operation with
  | wait | resume | setOptions => exact hstep.isMisuse h rfl
  | eventMessage =>
    rw [Operation.perform, eventMessage, whenStopped_of_stopped h.1, if_pos h.2] at he
    exact isMisuse_reading (Tracee.unrefused_eventMessage s.pid) _ he
  | readRegister field =>
    exact isMisuse_reading (unrefused_whenStopped (field.unrefused_read s.pid) h _) _ he
  | filterAt index =>
    exact isMisuse_reading
      (unrefused_whenStopped (SeccompFilter.unrefused_read s.pid index) h _) _ he
  | filters limit =>
    exact isMisuse_reading
      (unrefused_whenStopped (SeccompFilter.unrefused_readAll s.pid limit) h _) _ he
  | peek address =>
    exact isMisuse_reading (unrefused_whenStopped (Tracee.unrefused_peek s.pid address) h _) _ he
  | machine => exact isMisuse_reading (Machine.unrefused_ofExecutable s.pid) _ he

/-! ## Steps and endings -/

/-- A request that needs a stopped tracee is made by no wait, and by other operations only while
the session is stopped. -/
theorem Step.stopped_of_needsStop (h : s.Step operation calls result t) {call : Call}
    (hcall : call ∈ calls) (hneeds : call.request.needsStop = true) :
    s.state = .stopped ∧ operation ≠ .wait := by
  cases h with
  | refused => cases hcall
  | attachStop state phase | attachFailed state phase =>
    simp [phase.needsStop hcall] at hneeds
  | waitFailed state waits =>
    rw [waits.request hcall] at hneeds
    cases hneeds
  | changed state waits ends means =>
    rcases List.mem_append.1 hcall with hcall | hcall
    · rw [waits.request hcall] at hneeds
      cases hneeds
    · cases means with
      | ended | enter | leave | event | unknownEvent | delivery => cases hcall
      | probedDelivery | group | probeFailed =>
        rw [List.mem_singleton.1 hcall] at hneeds
        cases hneeds
  | resumed answer state | notResumed errno state | optionsSet answer state
  | optionsNotSet errno state => exact ⟨state, by simp⟩
  | read allowed reading reads =>
    have hreads := reads call hcall
    cases operation with
    | wait | resume | setOptions => cases reading
    | eventMessage => exact ⟨allowed.1, by simp⟩
    | readRegister | filterAt | filters | peek => exact ⟨allowed, by simp⟩
    | machine =>
      have hrequest : call.request = .openExecutable s.pid := hreads
      rw [hrequest] at hneeds
      cases hneeds

/-- The calls of a destructor need no stopped tracee. -/
theorem Dropped.needsStop (h : s.Dropped calls) {call : Call} (hcall : call ∈ calls) :
    call.request.needsStop = false := by
  cases h with
  | detached reply =>
    rw [List.mem_singleton.1 hcall]
    rfl
  | missed state phase => exact phase.needsStop hcall
  | reached reply state phase =>
    rcases List.mem_append.1 hcall with hcall | hcall
    · exact phase.needsStop hcall
    · rw [List.mem_singleton.1 hcall]
      rfl
  | left => cases hcall

/-- The calls of a wait need none either, also those that find out what a change means. -/
theorem needsStop_wait (s : Session) (replies : List Reply) {call : Call}
    (hcall : call ∈ (s.wait replies).calls) : call.request.needsStop = false := by
  cases hneeds : call.request.needsStop with
  | false => rfl
  | true => exact absurd rfl ((step_wait s replies).stopped_of_needsStop hcall hneeds).2

theorem asks_waitOrDrop (s : Session) :
    s.waitOrDrop.Asks fun request => request.needsStop = false := by
  intro replies call hcall
  rcases waitOrDrop_cases s replies with ⟨_, _, hc, _⟩ | ⟨_, _, hc, _⟩
  · rw [hc] at hcall
    exact needsStop_wait s replies hcall
  · rw [hc] at hcall
    rcases List.mem_append.1 hcall with hcall | hcall
    · exact needsStop_wait s replies hcall
    · exact (dropped_drop _ _).needsStop hcall

end Session

/-- No session is stopped before it has begun. -/
theorem Opening.asks_perform (opening : Opening) (pid : Pid) :
    (opening.perform pid).Asks fun request => request.needsStop = false := by
  have hbegin : (opening.begin pid).Asks fun request => request.needsStop = false :=
    (opening.asks_begin pid).mono fun request hattach => by
      rw [hattach]
      rfl
  cases hw : opening.waits with
  | false =>
    rw [Opening.perform_of_not_waits hw]
    exact hbegin
  | true =>
    rw [Opening.perform_of_waits hw]
    exact hbegin.bind Session.asks_waitOrDrop

namespace Session

/-! ## Detaching -/

/-- A session that refuses to detach is dropped, and only the result tells of the refusal. -/
theorem detach_of_not_stopped {s : Session} (h : s.state ≠ .stopped) (replies : List Reply) :
    s.detach replies = (s.drop replies).withResult (.error (s.refusal "detach from")) := by
  rw [detach, if_neg h]
  show (s.drop replies).followedBy (⟨_, [], [], _⟩ : Exchange (Except Error Unit)) = _
  simp [Exchange.followedBy, Exchange.withResult]

/-- A stopped session does not refuse to detach. -/
theorem isMisuse_detach {s : Session} (h : s.state = .stopped) {replies : List Reply}
    {error : Error} (he : (s.detach replies).result = .error error) : error.isMisuse = false := by
  rw [detach, if_pos h] at he
  rcases Attempt.note_command_cases (.detaching s.pid) s.pid (.detach s.pid none) replies with
    ⟨_, _, hr⟩ | ⟨errno, _, hr⟩
  · cases hr.symm.trans he
  · cases hr.symm.trans he
    exact Error.isMisuse_ofErrno _ _

/-! ## The guards of a session -/

/-- In every session and whatever the kernel replies, an operation is refused exactly if it is not
allowed. The error then names the process and the state, and nothing else happens. Detaching is
refused exactly if the session is not stopped, and then the session is dropped. A request that needs
a stopped tracee is made only by an operation on a stopped session, and never while a session begins
or ends. -/
theorem refused_iff_not_allowed (s : Session) :
    (∀ (operation : Operation) (replies : List Reply),
      let x := operation.perform s replies
      ((∃ error, x.result.1 = .error error ∧ error.isMisuse = true) ↔ ¬operation.Allowed s) ∧
        (¬operation.Allowed s → ∃ what,
          x = ⟨(.error (.misuse s.pid s.state what), s), [], [], replies⟩) ∧
        ∀ call ∈ x.calls, call.request.needsStop = true → s.state = .stopped) ∧
      (∀ replies,
        ((∃ error, (s.detach replies).result = .error error ∧ error.isMisuse = true) ↔
          s.state ≠ .stopped) ∧
        (s.state ≠ .stopped → s.detach replies =
          (s.drop replies).withResult (.error (.misuse s.pid s.state "detach from")))) ∧
      (∀ (closing : Closing) (replies : List Reply), ∀ call ∈ closing.calls s replies,
        call.request.needsStop = false) ∧
      ∀ (opening : Opening) (replies : List Reply), ∀ call ∈ (opening.perform s.pid replies).calls,
        call.request.needsStop = false := by
  refine ⟨fun operation replies => ?_, fun replies => ?_, fun closing replies call hcall => ?_,
    fun opening replies => opening.asks_perform s.pid replies⟩
  · refine ⟨⟨fun ⟨error, he, hmisuse⟩ hallowed => ?_, fun hforbidden => ?_⟩,
      fun hforbidden => perform_of_not_allowed hforbidden replies, fun call hcall hneeds => ?_⟩
    · simp [isMisuse_eq_false_of_allowed hallowed he] at hmisuse
    · obtain ⟨what, hx⟩ := perform_of_not_allowed hforbidden replies
      exact ⟨s.refusal what, by rw [hx], rfl⟩
    · exact ((step_perform s operation replies).stopped_of_needsStop hcall hneeds).1
  · refine ⟨⟨fun ⟨error, he, hmisuse⟩ hstopped => ?_, fun hs => ?_⟩,
      fun hs => detach_of_not_stopped hs replies⟩
    · simp [isMisuse_detach hstopped he] at hmisuse
    · exact ⟨s.refusal "detach from", by rw [detach_of_not_stopped hs]; rfl, rfl⟩
  · exact (closing.dropped s replies).needsStop hcall

end Session

end ProcTrace
