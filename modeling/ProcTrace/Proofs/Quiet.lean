import ProcTrace.Proofs.ReportedFailure
import ProcTrace.Register.Read

/-!
# What is done without a warning

A tracer is `Quiet` if it logs no warning, whatever the kernel replies. Sequences and loops of quiet
tracers are quiet, and so are all requests, all readings and all operations on a session
(`Operation.quiet_perform`), as is the opening of a session up to its first wait
(`Opening.quiet_begin`). What is left is dropping a session. Most of what is asked about a tracee is
quiet because its parts are (`inherited_quiet`), and only what is more than that is looked at one by
one.
-/

namespace ProcTrace

variable {α β σ : Type}

/-- The warnings among what was logged. -/
def Exchange.warnings (x : Exchange α) : List Record :=
  x.log.filter fun record => record.level = .warn

namespace Exchange

@[simp] theorem warnings_withResult (x : Exchange α) (b : β) :
    (x.withResult b).warnings = x.warnings := rfl

@[simp] theorem warnings_followedBy (x : Exchange α) (y : Exchange β) :
    (x.followedBy y).warnings = x.warnings ++ y.warnings :=
  List.filter_append _ _

end Exchange

/-! ## Quiet attempts -/

namespace Tracer

/-- The tracer logs no warning. -/
def Quiet (x : Tracer α) : Prop :=
  ∀ replies, (x replies).warnings = []

theorem quiet_pure (a : α) : Quiet (pure a : Tracer α) := fun _ => rfl

/-- A note is quiet unless it is a warning itself. -/
theorem quiet_note {record : Record} (h : record.level ≠ .warn) : Quiet (note record) := fun _ =>
  List.filter_cons_of_neg (by simpa using h)

/-- A sequence is quiet if both parts are, whatever the first part gives. -/
theorem Quiet.bind {x : Tracer α} {f : α → Tracer β} (hx : Quiet x) (hf : ∀ a, Quiet (f a)) :
    Quiet (x >>= f) := fun replies => by
  rw [bind_apply, Exchange.warnings_followedBy, hx, hf, List.append_nil]

/-- So a wait of a session is quiet if its parts are. -/
theorem inherited_quiet : Inherited fun _ => Quiet where
  pure := quiet_pure
  note := quiet_note
  bind := Quiet.bind

/-- What is said about the replies that are passed over has to be quiet. -/
theorem quiet_askUntil (request : Request) {judge : Reply → Except Errno α ⊕ List Record}
    {accepts : judge (.error request.lastErrno) = .inl (.error request.lastErrno)}
    (h : ∀ reply records, judge reply = .inr records → ∀ record ∈ records, record.level ≠ .warn) :
    Quiet (askUntil request judge accepts) := fun replies => by
  induction replies with
  | nil => rfl
  | cons reply rest ih =>
    unfold askUntil
    split
    next => rfl
    next records hjudge =>
      have hrecords : records.filter (fun record => record.level = .warn) = [] :=
        List.filter_eq_nil_iff.2 fun record hrecord => by
          simpa using h reply records hjudge record hrecord
      rw [Exchange.warnings_followedBy, ih, List.append_nil]
      exact hrecords

end Tracer

namespace Attempt

/-- The attempt logs no warning. -/
abbrev Quiet (x : Attempt α) : Prop :=
  Tracer.Quiet x.run

theorem quiet_pure (a : α) : Quiet (pure a : Attempt α) := fun _ => rfl

theorem quiet_throw (error : Error) : Quiet (throw error : Attempt α) := fun _ => rfl

theorem quiet_note {record : Record} (h : record.level ≠ .warn) : Quiet (note record) := fun _ =>
  List.filter_cons_of_neg (by simpa using h)

/-- A request by itself logs nothing, and neither does its failure. -/
theorem quiet_askOr (cause : Errno → Error) (request : Request) : Quiet (askOr cause request)
  | [] => rfl
  | _ :: _ => rfl

theorem quiet_command (pid : Pid) (request : Request) : Quiet (command pid request) :=
  fun replies => quiet_askOr (.ofErrno pid) request replies

/-- A sequence is quiet if its first part is, and its second after every success of the first. -/
theorem Quiet.bind {x : Attempt α} {f : α → Attempt β} (hx : Quiet x) (hf : ∀ a, Quiet (f a)) :
    Quiet (x >>= f) := fun replies => by
  show ((x >>= f) replies).warnings = []
  rcases bind_cases x f replies with ⟨error, _, h⟩ | ⟨a, _, h⟩
  · rw [h]
    exact hx replies
  · rw [h, Exchange.warnings_followedBy]
    exact List.append_eq_nil_iff.2 ⟨hx replies, hf a _⟩

theorem Quiet.outcome {x : Attempt α} (hx : x.Quiet) : Quiet x.outcome := fun replies =>
  hx replies

/-- A loop is quiet if its step is in every state. -/
theorem Quiet.loop {step : σ → Attempt (α ⊕ σ)}
    {progress : ∀ state replies next, (step state replies).result = .ok (.inr next) →
      (step state replies).rest.length < replies.length}
    (h : ∀ state, Quiet (step state)) (state : σ) : Quiet (loop step progress state) := by
  intro replies
  refine loop_induction (motive := fun _ _ x => x.warnings = []) ?failed ?done ?next state replies
  case failed => exact fun state replies _ _ => h state replies
  case done => exact fun state replies _ _ => h state replies
  case next =>
    intro state replies _ _ ih
    rw [Exchange.warnings_followedBy, ih, List.append_nil]
    exact h state replies

end Attempt

/-! ## Requests about a tracee -/

section

variable (pid : Pid)

/-- A wait logs what it passes over, so this has to be quiet. -/
theorem quiet_nextChange {passedOver : WaitStatus → List Record}
    (h : ∀ status, ∀ record ∈ passedOver status, record.level ≠ .warn) :
    Tracer.Quiet (nextChange pid passedOver) := by
  refine Tracer.quiet_askUntil _ fun reply records hjudge => ?_
  unfold judgeWait at hjudge
  split at hjudge
  next status _ =>
    split at hjudge
    next => cases hjudge
    next =>
      cases hjudge
      exact h status
  next =>
    split at hjudge
    next =>
      cases hjudge
      simp
    next => cases hjudge

/-- A tracee that ends before it has stopped is noted, but no warning is due. -/
theorem quiet_stopOfChange (change : Except Errno (Pid × Change)) :
    Attempt.Quiet (stopOfChange pid change) := by
  match change with
  | .ok (_, .stopped _) => exact Attempt.quiet_pure _
  | .ok (_, .ended _) =>
    exact (Attempt.quiet_note (by simp [Record.level])).bind fun _ => Attempt.quiet_throw _
  | .error _ => exact Attempt.quiet_throw _

theorem quiet_nextStop : Attempt.Quiet (nextStop pid) := fun replies => by
  have hchange : Tracer.Quiet (nextChange pid fun status => [.ignoredStatus status]) :=
    quiet_nextChange pid fun status => by simp [Record.level]
  show (nextStop pid replies).warnings = []
  rw [nextStop, Exchange.warnings_followedBy, hchange]
  exact quiet_stopOfChange pid _ _

/-- What is put together from waits, requests and notes is quiet. -/
theorem inherited_quiet : Attempt.Inherited pid fun _ => Attempt.Quiet where
  pure := Attempt.quiet_pure
  throw := Attempt.quiet_throw
  note := Attempt.quiet_note
  ask _ := Attempt.quiet_askOr _ _
  command _ := Attempt.quiet_command pid _
  nextStop := quiet_nextStop pid
  bind := Attempt.Quiet.bind
  loop := Attempt.Quiet.loop

theorem quiet_traceMe : Attempt.Quiet traceMe := fun replies =>
  Attempt.quiet_askOr .os .traceMe replies

theorem quiet_traceMeAndStop : Attempt.Quiet (traceMeAndStop pid) :=
  quiet_traceMe.bind fun _ replies => Attempt.quiet_askOr .os _ replies

theorem Tracee.quiet_peek (address : UInt64) : Attempt.Quiet (peek pid address) := fun replies =>
  Attempt.quiet_askOr .os (.peekData pid address) replies

/-- A register that cannot be read is noted, but no warning is due. -/
theorem quiet_registerValue (offset : UInt64) (bits : UInt32) :
    Tracer.Quiet (registerValue pid offset bits) := by
  have hfield :
      Attempt.Quiet (liftM (RegisterField.ofBits offset bits) : Attempt RegisterField) := by
    cases RegisterField.ofBits offset bits with
    | ok | error => exact fun _ => rfl
  refine Tracer.Quiet.bind (hfield.bind (inherited_quiet pid).readRegister) fun value => ?_
  cases value with
  | ok value => exact Tracer.quiet_pure _
  | error error =>
    exact (Tracer.quiet_note (by simp [Record.level])).bind fun _ => Tracer.quiet_pure _

namespace SeccompFilter

theorem quiet_read (index : Nat) : Attempt.Quiet (read pid index) :=
  (inherited_quiet pid).readFilter fun _ => Attempt.quiet_askOr _ _

/-- The end of a chain of filters is no failure, and other failures are reported and not logged. -/
theorem quiet_readAll (limit : Option Nat) : Attempt.Quiet (readAll pid limit) := by
  refine Attempt.Quiet.loop (fun earlier replies => ?_) []
  show (readNext pid limit earlier replies).warnings = []
  by_cases hlimit : limit = some earlier.length
  · rw [readNext_of_limit pid hlimit]
    rfl
  · rw [readNext_of_not_limit pid hlimit]
    exact quiet_read pid _ replies

end SeccompFilter

/-- An interrupted attempt to open the executable is repeated in silence. -/
theorem Machine.quiet_ofExecutable : Attempt.Quiet (Machine.ofExecutable pid) := by
  have hopen : Tracer.Quiet
      (Tracer.askUntil (.openExecutable pid) judgeOpen (judgeOpen_lastErrno pid)) := by
    refine Tracer.quiet_askUntil _ fun reply records hjudge => ?_
    unfold judgeOpen at hjudge
    split at hjudge
    next => cases hjudge
    next =>
      split at hjudge
      next =>
        cases hjudge
        simp
      next => cases hjudge
  exact hopen

/-- To find out that a stop is a group-stop takes a request that fails, of which nothing is said. -/
theorem quiet_stopsGroup (signal : Signal) : Attempt.Quiet (stopsGroup pid signal) := by
  intro replies
  show (stopsGroup pid signal replies).warnings = []
  unfold stopsGroup
  split
  · exact Attempt.quiet_askOr .os (.signalInfo pid) replies
  · rfl

end

/-! ## Sessions -/

namespace Session

variable (s : Session)

/-- An operation that is not allowed makes no noise either. -/
theorem quiet_whenStopped {x : Attempt α} (hx : x.Quiet) (what : String) :
    Attempt.Quiet (s.whenStopped what x) := by
  by_cases hs : s.state = .stopped
  · rw [whenStopped_of_stopped hs]
    exact hx
  · rw [whenStopped_of_not_stopped hs]
    exact Attempt.quiet_throw _

theorem quiet_advance {x : Attempt α} (hx : x.Quiet) (next : Session) :
    Tracer.Quiet (s.advance x next) := by
  refine Tracer.Quiet.bind hx fun outcome => ?_
  cases outcome with
  | ok | error => exact Tracer.quiet_pure _

theorem quiet_interpret (change : Change) : Attempt.Quiet (s.interpret change) :=
  (inherited_quiet s.pid).interpret (quiet_stopsGroup s.pid) change

/-- Every wait of a session is quiet, also one that ends it. -/
theorem quiet_wait : Tracer.Quiet s.wait :=
  Tracer.inherited_quiet.wait (inherited_quiet s.pid).reachAttachStop
    (quiet_nextChange s.pid fun _ => by simp) s.quiet_interpret

/-- Options that are set once more are noted, but no warning is due. -/
theorem quiet_setOptions (options : TraceOptions) : Tracer.Quiet (s.setOptions options) := by
  refine s.quiet_advance (s.quiet_whenStopped ?_ _) _
  unfold setOptions.apply
  split
  · exact (Attempt.quiet_note (by simp [Record.level])).bind fun _ =>
      (inherited_quiet s.pid).setOptions options
  · exact (inherited_quiet s.pid).setOptions options

theorem quiet_eventMessage : Attempt.Quiet s.eventMessage := by
  refine s.quiet_whenStopped ?_ _
  split
  · exact (inherited_quiet s.pid).eventMessage
  · exact Attempt.quiet_throw _

end Session

/-- No operation on a session warns of anything. -/
theorem Operation.quiet_perform (s : Session) (operation : Operation) :
    Tracer.Quiet (operation.perform s) := by
  have hreading {α : Type} {x : Attempt α} (hx : x.Quiet) (wrap : α → Outcome) :
      Tracer.Quiet (reading s wrap x) := Tracer.Quiet.bind hx fun _ => Tracer.quiet_pure _
  have hchanging {α : Type} {x : Tracer (Except Error α × Session)} (hx : x.Quiet)
      (wrap : α → Outcome) : Tracer.Quiet (changing wrap x) :=
    hx.bind fun _ => Tracer.quiet_pure _
  cases operation with
  | wait => exact hchanging s.quiet_wait _
  | resume signal =>
    have hresume := (inherited_quiet s.pid).resume signal
    exact hchanging (s.quiet_advance (s.quiet_whenStopped hresume _) _) _
  | setOptions options => exact hchanging (s.quiet_setOptions options) _
  | eventMessage => exact hreading s.quiet_eventMessage _
  | readRegister field =>
    exact hreading (s.quiet_whenStopped ((inherited_quiet s.pid).readRegister field) _) _
  | filterAt index =>
    exact hreading (s.quiet_whenStopped (SeccompFilter.quiet_read s.pid index) _) _
  | filters limit =>
    exact hreading (s.quiet_whenStopped (SeccompFilter.quiet_readAll s.pid limit) _) _
  | peek address => exact hreading (s.quiet_whenStopped (Tracee.quiet_peek s.pid address) _) _
  | machine => exact hreading (Machine.quiet_ofExecutable s.pid) _

/-- A session begins without a warning. Only its first wait can lead to one, by a session that is
dropped. -/
theorem Opening.quiet_begin (opening : Opening) (pid : Pid) :
    Attempt.Quiet (opening.begin pid) := by
  have hadopt : Attempt.Quiet (Session.adopt pid) :=
    (Attempt.quiet_note (by simp [Record.level])).bind fun _ => Attempt.quiet_pure _
  cases opening with
  | attach | attachStopped => exact (inherited_quiet pid).attach.bind fun _ => hadopt
  | adopt | adoptStopped => exact hadopt

end ProcTrace
