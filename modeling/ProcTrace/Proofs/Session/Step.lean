import ProcTrace.Proofs.AttachPhase
import ProcTrace.Proofs.Seccomp.Read
import ProcTrace.Session.Operation

/-!
# Steps of a session

A step is an operation with the calls it makes, its result and the session afterwards. `Step` lists
all steps there are, with the state that each of them needs, and `step_perform` says that carrying
out an operation is one of them. What holds of every step is shown by going through this list.
-/

namespace ProcTrace

variable {α β : Type}

/-! ## The requests of the reading operations -/

section

variable {p : Request → Prop}

theorem RegisterField.asks_read (pid : Pid) (f : RegisterField)
    (h : p (.registerSet pid f.coverLength.toNat)) : Attempt.Asks p (f.read pid) := by
  refine (Attempt.asks_askOr _ h).bind fun answer => (Attempt.asks_note _).bind fun _ => ?_
  split
  · exact Attempt.asks_throw _
  · split
    · exact Attempt.asks_pure _
    · exact Attempt.asks_throw _

theorem SeccompFilter.asks_read (pid : Pid) (index : Nat)
    (h : ∀ capacity, p (.seccompFilter pid index capacity)) :
    Attempt.Asks p (SeccompFilter.read pid index) := by
  refine (Attempt.asks_askOr _ (h _)).bind fun counted => (Attempt.asks_note _).bind fun _ =>
    (Attempt.asks_askOr _ (h _)).bind fun copied => ?_
  split
  · exact (Attempt.asks_note _).bind fun _ => Attempt.asks_pure _
  · exact Attempt.asks_throw _

/-- A chain is read with one request for each filter, whose index is the number of those before it.
-/
theorem SeccompFilter.asks_readAll (pid : Pid) (limit : Option Nat)
    (h : ∀ index capacity, p (.seccompFilter pid index capacity)) :
    Attempt.Asks p (SeccompFilter.readAll pid limit) := by
  refine Attempt.Asks.loop (fun earlier replies call hcall => ?_) []
  by_cases hlimit : limit = some earlier.length
  · rw [SeccompFilter.readNext_of_limit pid hlimit] at hcall
    cases hcall
  · rw [SeccompFilter.readNext_of_not_limit pid hlimit] at hcall
    exact SeccompFilter.asks_read pid _ (h _) replies call hcall

theorem Tracee.asks_peek (pid : Pid) (address : UInt64) (h : p (.peekData pid address)) :
    Attempt.Asks p (Tracee.peek pid address) :=
  Attempt.asks_askOr .os h

/-- An interrupted opening is repeated, so nothing but the opening is asked for. -/
theorem Machine.asks_ofExecutable (pid : Pid) (h : p (.openExecutable pid)) :
    Attempt.Asks p (Machine.ofExecutable pid) := by
  intro replies call hcall
  obtain ⟨passed, reply, hcalls, hpassed, _⟩ :=
    Tracer.exists_calls_askUntil (.openExecutable pid) Machine.judgeOpen
      (Machine.judgeOpen_lastErrno pid) replies
  simp only [Machine.ofExecutable, Exchange.calls_withResult, hcalls] at hcall
  rcases List.mem_append.1 hcall with hcall | hcall
  · rw [(hpassed call hcall).1]
    exact h
  · rw [List.mem_singleton.1 hcall]
    exact h

end

/-! ## Steps -/

namespace Operation

/-- Only read from the tracee or its executable. -/
def isReading : Operation → Bool
  | wait | resume _ | setOptions _ => false
  | _ => true

/-- The requests of a reading operation. -/
def ReadsBy (pid : Pid) : Operation → Request → Prop
  | eventMessage, request => request = .eventMessage pid
  | readRegister field, request => request = .registerSet pid field.coverLength.toNat
  | filterAt index, request => ∃ capacity, request = .seccompFilter pid index capacity
  | filters _, request => ∃ index capacity, request = .seccompFilter pid index capacity
  | peek address, request => request = .peekData pid address
  | machine, request => request = .openExecutable pid
  | wait, _ | resume _, _ | setOptions _, _ => False

/-- The operation is allowed in the present state. -/
def Allowed (s : Session) : Operation → Prop
  | wait => s.state = .attaching ∨ s.state = .continuing
  | eventMessage => s.state = .stopped ∧ s.lastStop.any Stop.isEvent = true
  | machine => True
  | _ => s.state = .stopped

end Operation

namespace Session

/-- What a change can turn out to mean, with the calls made to find out. -/
inductive Classified (s : Session) :
    Change → List Call → Except Error (Stop × Bool) → Prop
  | ended (ending : Ending) : Classified s (.ended ending) [] (.ok (.ended ending, s.inSyscall))
  | enter (outside : s.inSyscall = false) :
      Classified s (.stopped .syscall) [] (.ok (.syscallEnter, true))
  | leave (inside : s.inSyscall = true) :
      Classified s (.stopped .syscall) [] (.ok (.syscallExit, false))
  | event {signal : Signal} {code : Int} {event : Event} (known : Event.ofCode? code = some event) :
      Classified s (.stopped (.event signal code)) []
        (.ok (.event event, s.inSyscall || event.midSyscall))
  | unknownEvent {signal : Signal} {code : Int} (unknown : Event.ofCode? code = none) :
      Classified s (.stopped (.event signal code)) []
        (.error (.internal "unexpected ptrace-event-stop code"))
  | delivery {signal : Signal} (single : signal.mayStopGroup = false) :
      Classified s (.stopped (.signal signal)) [] (.ok (.signalDelivery signal, s.inSyscall))
  | probedDelivery {signal : Signal} {answer : Answer} (maybe : signal.mayStopGroup = true) :
      Classified s (.stopped (.signal signal)) [⟨.signalInfo s.pid, .ok answer⟩]
        (.ok (.signalDelivery signal, s.inSyscall))
  | group {signal : Signal} (maybe : signal.mayStopGroup = true) :
      Classified s (.stopped (.signal signal)) [⟨.signalInfo s.pid, .error .einval⟩]
        (.ok (.group signal, s.inSyscall))
  | probeFailed {signal : Signal} {errno : Errno} (maybe : signal.mayStopGroup = true)
      (other : errno ≠ .einval) :
      Classified s (.stopped (.signal signal)) [⟨.signalInfo s.pid, .error errno⟩]
        (.error (.ofErrno s.pid errno))

/-- To find out what a change means, nothing is asked for but the origin of a signal. -/
theorem Classified.request_eq {s : Session} {change : Change} {probe : List Call}
    {classified : Except Error (Stop × Bool)} (h : s.Classified change probe classified)
    {call : Call} (hcall : call ∈ probe) : call.request = .signalInfo s.pid := by
  cases h with
  | probedDelivery | group | probeFailed => rw [List.mem_singleton.1 hcall]
  | _ => cases hcall

/-- The session after a wait for the attach-stop that failed. -/
def afterFailedAttach (s : Session) (error : Error) : Session :=
  if error.traceeGone then { s with state := .exited } else s

/-- The steps of a session : an operation with its calls, its result and the session afterwards. -/
inductive Step (s : Session) : Operation → List Call → Except Error Outcome → Session → Prop
  /-- The operation is not allowed. -/
  | refused {operation : Operation} (what : String) (forbidden : ¬operation.Allowed s) :
      Step s operation [] (.error (s.refusal what)) s
  | attachStop {calls : List Call} (state : s.state = .attaching)
      (phase : AttachPhase s.pid calls (.ok ())) :
      Step s .wait calls (.ok (.stop .attach))
        { s with state := .stopped, lastStop := some .attach }
  | attachFailed {calls : List Call} {error : Error} (state : s.state = .attaching)
      (phase : AttachPhase s.pid calls (.error error)) :
      Step s .wait calls (.error error) (s.afterFailedAttach error)
  | waitFailed {calls : List Call} {reply : Reply} {errno : Errno} (state : s.state = .continuing)
      (waits : Waits s.pid calls reply) (ends : reply.Ends s.pid (.error errno)) :
      Step s .wait calls (.error (.ofErrno s.pid errno)) (s.afterFailedWait errno)
  | changed {calls probe : List Call} {reply : Reply} {reporter : Pid} {change : Change}
      {classified : Except Error (Stop × Bool)} (state : s.state = .continuing)
      (waits : Waits s.pid calls reply) (ends : reply.Ends s.pid (.ok (reporter, change)))
      (means : s.Classified change probe classified) :
      Step s .wait (calls ++ probe) ((classified.map Prod.fst).map .stop)
        (s.settle classified)
  | resumed {signal : Option Signal} (answer : Answer) (state : s.state = .stopped) :
      Step s (.resume signal) [⟨.syscall s.pid signal, .ok answer⟩] (.ok .done)
        { s with state := .continuing, lastStop := none }
  | notResumed {signal : Option Signal} (errno : Errno) (state : s.state = .stopped) :
      Step s (.resume signal) [⟨.syscall s.pid signal, .error errno⟩]
        (.error (.ofErrno s.pid errno)) s
  | optionsSet {options : TraceOptions} (answer : Answer) (state : s.state = .stopped) :
      Step s (.setOptions options) [⟨.setOptions s.pid options, .ok answer⟩] (.ok .done)
        { s with options := some options }
  | optionsNotSet {options : TraceOptions} (errno : Errno) (state : s.state = .stopped) :
      Step s (.setOptions options) [⟨.setOptions s.pid options, .error errno⟩]
        (.error (.ofErrno s.pid errno)) s
  /-- A reading operation, which leaves the session as it is whether or not it succeeds. -/
  | read {operation : Operation} {calls : List Call} {result : Except Error Outcome}
      (allowed : operation.Allowed s) (reading : operation.isReading = true)
      (reads : ∀ call ∈ calls, operation.ReadsBy s.pid call.request) :
      Step s operation calls result s

/-! ## Every operation takes a step -/

/-- A signal that cannot stop a group is about to be delivered. -/
theorem interpretStop_of_single {s : Session} {signal : Signal} (h : signal.mayStopGroup = false)
    (replies : List Reply) :
    s.interpretStop (.signal signal) replies =
      ⟨.ok (.signalDelivery signal, s.inSyscall), [], [], replies⟩ := by
  have hsingle : stopsGroup s.pid signal replies = ⟨.ok false, [], [], replies⟩ := by
    simp [stopsGroup, h]
  rw [interpretStop, Attempt.bind_of_ok (a := false) (by rw [hsingle]), hsingle]
  rfl

/-- The origin of a signal that can stop a group is asked for, and the reply says what it means. -/
theorem interpretStop_of_probed {s : Session} {signal : Signal} (h : signal.mayStopGroup = true)
    (replies : List Reply) :
    let probe := replies.headD (.error .esrch)
    s.interpretStop (.signal signal) replies =
      ⟨(groupStopOfReply s.pid probe).map fun group =>
          (if group then .group signal else .signalDelivery signal, s.inSyscall),
        [⟨.signalInfo s.pid, probe⟩], [], replies.tail⟩ := by
  intro probe
  have hprobed : stopsGroup s.pid signal replies =
      ⟨groupStopOfReply s.pid probe, [⟨.signalInfo s.pid, probe⟩], [], replies.tail⟩ := by
    unfold stopsGroup
    rw [if_pos h]
    cases replies <;> rfl
  have hresult : (stopsGroup s.pid signal replies).result = groupStopOfReply s.pid probe := by
    rw [hprobed]
  cases hgroup : groupStopOfReply s.pid probe with
  | error error =>
    rw [interpretStop, Attempt.bind_of_error (hresult.trans hgroup), hprobed]
    rfl
  | ok group =>
    rw [interpretStop, Attempt.bind_of_ok (hresult.trans hgroup), hprobed]
    cases group <;> rfl

theorem classified_signal (s : Session) (signal : Signal) (replies : List Reply) :
    s.Classified (.stopped (.signal signal)) (s.interpretStop (.signal signal) replies).calls
      (s.interpretStop (.signal signal) replies).result := by
  cases hmay : signal.mayStopGroup with
  | false =>
    rw [interpretStop_of_single hmay]
    exact .delivery hmay
  | true =>
    rw [interpretStop_of_probed hmay]
    cases replies.headD (.error .esrch) with
    | ok answer => exact .probedDelivery hmay
    | error errno =>
      by_cases hinvalid : errno = .einval
      · subst hinvalid
        exact .group hmay
      · simp only [groupStopOfReply, if_neg hinvalid]
        exact .probeFailed hmay hinvalid

/-- A report is interpreted as one of the classifications, with the calls that belong to it. -/
theorem classified_interpretStop (s : Session) (report : StopReport) (replies : List Reply) :
    s.Classified (.stopped report) (s.interpretStop report replies).calls
      (s.interpretStop report replies).result := by
  cases report with
  | signal signal => exact classified_signal s signal replies
  | syscall =>
    unfold interpretStop
    split
    next inside => exact .leave inside
    next outside => exact .enter (by simpa using outside)
  | event signal code =>
    cases known : Event.ofCode? code with
    | some event =>
      have hx : s.interpretStop (.event signal code) =
          pure (.event event, s.inSyscall || event.midSyscall) := by
        simp only [interpretStop, known]
      rw [hx]
      exact .event known
    | none =>
      have hx : s.interpretStop (.event signal code) =
          throw (.internal "unexpected ptrace-event-stop code") := by
        simp only [interpretStop, known]
      rw [hx]
      exact .unknownEvent known

theorem classified_interpret (s : Session) (change : Change) (replies : List Reply) :
    s.Classified change (s.interpret change replies).calls (s.interpret change replies).result := by
  cases change with
  | stopped report => exact classified_interpretStop s report replies
  | ended ending => exact .ended ending

/-- Once the attach-stop is reached, the session is stopped in it. -/
theorem awaitAttachStop_of_ok {s : Session} {replies : List Reply}
    (h : (reachAttachStop s.pid replies).result = .ok ()) :
    (s.awaitAttachStop replies).calls = (reachAttachStop s.pid replies).calls ∧
      (s.awaitAttachStop replies).result =
        (.ok .attach, { s with state := .stopped, lastStop := some .attach }) := by
  unfold awaitAttachStop ExceptT.run
  rw [Tracer.bind_apply, h]
  exact ⟨List.append_nil _, rfl⟩

/-- A wait for the attach-stop that fails ends the session only if the tracee is gone. -/
theorem awaitAttachStop_of_error {s : Session} {replies : List Reply} {error : Error}
    (h : (reachAttachStop s.pid replies).result = .error error) :
    (s.awaitAttachStop replies).calls = (reachAttachStop s.pid replies).calls ∧
      (s.awaitAttachStop replies).result = (.error error, s.afterFailedAttach error) := by
  unfold awaitAttachStop ExceptT.run
  rw [Tracer.bind_apply, h]
  exact ⟨List.append_nil _, rfl⟩

/-- A change of the session takes place if the request succeeds. -/
theorem advance_of_ok {s : Session} (next : Session) {x : Attempt α} {replies : List Reply} {a : α}
    (h : (x replies).result = .ok a) :
    (s.advance x next replies).calls = (x replies).calls ∧
      (s.advance x next replies).result = (.ok a, next) := by
  unfold advance ExceptT.run
  rw [Tracer.bind_apply, h]
  exact ⟨List.append_nil _, rfl⟩

/-- It does not if the request fails. -/
theorem advance_of_error {s : Session} (next : Session) {x : Attempt α} {replies : List Reply}
    {error : Error} (h : (x replies).result = .error error) :
    (s.advance x next replies).calls = (x replies).calls ∧
      (s.advance x next replies).result = (.error error, s) := by
  unfold advance ExceptT.run
  rw [Tracer.bind_apply, h]
  exact ⟨List.append_nil _, rfl⟩

theorem record_apply (s : Session) (classified : Except Error (Stop × Bool))
    (replies : List Reply) :
    (s.record classified replies).calls = [] ∧
      (s.record classified replies).result =
        (classified.map Prod.fst, s.settle classified) := by
  cases classified with
  | ok c => exact ⟨rfl, rfl⟩
  | error error => exact ⟨rfl, rfl⟩

/-- A change that was reported is interpreted with the replies left, and recorded. -/
theorem awaitChange_of_ok {s : Session} {replies : List Reply} {reporter : Pid} {change : Change}
    (h : (nextChange s.pid (fun _ => []) replies).result = .ok (reporter, change)) :
    let waited := nextChange s.pid (fun _ => []) replies
    let classified := s.interpret change waited.rest
    (s.awaitChange replies).calls = waited.calls ++ classified.calls ∧
      (s.awaitChange replies).result =
        (classified.result.map Prod.fst, s.settle classified.result) := by
  intro waited classified
  obtain ⟨hcalls, hresult⟩ := record_apply s classified.result classified.rest
  have hx : s.awaitChange replies = waited.followedBy
      (classified.followedBy (s.record classified.result classified.rest)) := by
    unfold awaitChange
    rw [Tracer.bind_apply, h]
    rfl
  rw [hx]
  refine ⟨?_, hresult⟩
  rw [Exchange.calls_followedBy, Exchange.calls_followedBy, hcalls, List.append_nil]

/-- A wait that fails in the kernel is not interpreted. -/
theorem awaitChange_of_error {s : Session} {replies : List Reply} {errno : Errno}
    (h : (nextChange s.pid (fun _ => []) replies).result = .error errno) :
    (s.awaitChange replies).calls = (nextChange s.pid (fun _ => []) replies).calls ∧
      (s.awaitChange replies).result =
        (.error (.ofErrno s.pid errno), s.afterFailedWait errno) := by
  unfold awaitChange
  rw [Tracer.bind_apply, h]
  exact ⟨List.append_nil _, rfl⟩

/-- An attaching session waits for the attach-stop. -/
theorem wait_attaching_cases {s : Session} (hs : s.state = .attaching) (replies : List Reply) :
    (AttachPhase s.pid (s.wait replies).calls (.ok ()) ∧ (s.wait replies).result =
      (.ok .attach, { s with state := .stopped, lastStop := some .attach })) ∨
    ∃ error, AttachPhase s.pid (s.wait replies).calls (.error error) ∧
      (s.wait replies).result = (.error error, s.afterFailedAttach error) := by
  have hwait : s.wait = s.awaitAttachStop := by simp [wait, hs]
  have hphase := attachPhase_reachAttachStop s.pid replies
  rw [hwait]
  cases hr : (reachAttachStop s.pid replies).result with
  | ok u =>
    obtain ⟨hc, hx⟩ := awaitAttachStop_of_ok hr
    rw [hr] at hphase
    rw [hc]
    exact Or.inl ⟨hphase, hx⟩
  | error error =>
    obtain ⟨hc, hx⟩ := awaitAttachStop_of_error hr
    rw [hr] at hphase
    rw [hc]
    exact Or.inr ⟨error, hphase, hx⟩

theorem wait_of_continuing {s : Session} (hs : s.state = .continuing) : s.wait = s.awaitChange := by
  simp [wait, hs]

/-- A running session waits for a change, and finds out what it means. -/
theorem wait_continuing_cases {s : Session} (hs : s.state = .continuing) (replies : List Reply) :
    (∃ reply errno, Waits s.pid (s.wait replies).calls reply ∧ reply.Ends s.pid (.error errno) ∧
      (s.wait replies).result = (.error (.ofErrno s.pid errno), s.afterFailedWait errno)) ∨
    ∃ waits probe reply reporter change classified, Waits s.pid waits reply ∧
      reply.Ends s.pid (.ok (reporter, change)) ∧ s.Classified change probe classified ∧
      (s.wait replies).calls = waits ++ probe ∧
      (s.wait replies).result = (classified.map Prod.fst, s.settle classified) := by
  obtain ⟨reply, hwaits, hends⟩ := exists_waits_nextChange s.pid (fun _ => []) replies
  rw [wait_of_continuing hs]
  cases hr : (nextChange s.pid (fun _ => []) replies).result with
  | ok reported =>
    obtain ⟨hc, hx⟩ := awaitChange_of_ok hr
    rw [hr] at hends
    exact Or.inr ⟨_, _, reply, reported.1, reported.2, _, hwaits, hends,
      classified_interpret s reported.2 _, hc, hx⟩
  | error errno =>
    obtain ⟨hc, hx⟩ := awaitChange_of_error hr
    rw [hr] at hends
    rw [hc]
    exact Or.inl ⟨reply, errno, hwaits, hends, hx⟩

/-- A wait takes one of the steps of a wait. -/
theorem step_wait (s : Session) (replies : List Reply) :
    s.Step .wait (s.wait replies).calls ((s.wait replies).result.1.map .stop)
      (s.wait replies).result.2 := by
  cases hs : s.state with
  | attaching =>
    rcases wait_attaching_cases hs replies with ⟨hphase, hr⟩ | ⟨error, hphase, hr⟩
    · rw [hr]
      exact .attachStop hs hphase
    · rw [hr]
      exact .attachFailed hs hphase
  | continuing =>
    rcases wait_continuing_cases hs replies with
      ⟨reply, errno, hwaits, hends, hr⟩ | ⟨_, _, _, _, _, _, hwaits, hends, hmeans, hc, hr⟩
    · rw [hr]
      exact .waitFailed hs hwaits hends
    · rw [hc, hr]
      exact .changed hs hwaits hends hmeans
  | detached | stopped | exited =>
    have hwait : s.wait = pure (.error (s.refusal "wait on"), s) := by simp [wait, hs]
    rw [hwait]
    exact .refused "wait on" (by simp [Operation.Allowed, hs])

/-- A request to a stopped tracee that changes the session if it succeeds. -/
theorem advance_whenStopped_cases (s next : Session) (what : String) {x : Attempt Unit}
    {request : Request} {replies : List Reply}
    (hx : (∃ answer, (x replies).calls = [⟨request, .ok answer⟩] ∧ (x replies).result = .ok ()) ∨
      ∃ errno, (x replies).calls = [⟨request, .error errno⟩] ∧
        (x replies).result = .error (.ofErrno s.pid errno)) :
    let taken := s.advance (s.whenStopped what x) next replies
    (s.state ≠ .stopped ∧ taken.calls = [] ∧ taken.result = (.error (s.refusal what), s)) ∨
    s.state = .stopped ∧
      ((∃ answer, taken.calls = [⟨request, .ok answer⟩] ∧ taken.result = (.ok (), next)) ∨
        ∃ errno, taken.calls = [⟨request, .error errno⟩] ∧
          taken.result = (.error (.ofErrno s.pid errno), s)) := by
  by_cases hstate : s.state = .stopped
  · rw [whenStopped_of_stopped hstate]
    refine Or.inr ⟨hstate, ?_⟩
    rcases hx with ⟨answer, hc, hr⟩ | ⟨errno, hc, hr⟩
    · obtain ⟨hcalls, hresult⟩ := advance_of_ok (s := s) next hr
      exact Or.inl ⟨answer, hcalls.trans hc, hresult⟩
    · obtain ⟨hcalls, hresult⟩ := advance_of_error (s := s) next hr
      exact Or.inr ⟨errno, hcalls.trans hc, hresult⟩
  · rw [whenStopped_of_not_stopped hstate]
    exact Or.inl ⟨hstate, rfl, rfl⟩

theorem step_resume (s : Session) (signal : Option Signal) (replies : List Reply) :
    s.Step (.resume signal) (s.resume signal replies).calls
      ((s.resume signal replies).result.1.map fun _ => .done)
      (s.resume signal replies).result.2 := by
  have hx := Attempt.note_command_cases (.restarting s.pid signal) s.pid (.syscall s.pid signal)
    replies
  rcases advance_whenStopped_cases s { s with state := .continuing, lastStop := none } "continue" hx
    with ⟨hstate, hc, hr⟩ | ⟨hstate, ⟨answer, hc, hr⟩ | ⟨errno, hc, hr⟩⟩
  all_goals
    unfold resume Tracee.resume
    rw [hc, hr]
  · exact .refused "continue" hstate
  · exact .resumed answer hstate
  · exact .notResumed errno hstate

theorem step_setOptions (s : Session) (options : TraceOptions) (replies : List Reply) :
    s.Step (.setOptions options) (s.setOptions options replies).calls
      ((s.setOptions options replies).result.1.map fun _ => .done)
      (s.setOptions options replies).result.2 := by
  have hx : (∃ answer, (setOptions.apply s options replies).calls =
        [⟨.setOptions s.pid options, .ok answer⟩] ∧
      (setOptions.apply s options replies).result = .ok ()) ∨
      ∃ errno, (setOptions.apply s options replies).calls =
          [⟨.setOptions s.pid options, .error errno⟩] ∧
        (setOptions.apply s options replies).result = .error (.ofErrno s.pid errno) := by
    have hset := Attempt.note_command_cases (.settingOptions s.pid options) s.pid
      (.setOptions s.pid options) replies
    unfold setOptions.apply
    split
    · rw [Attempt.bind_of_ok (x := Attempt.note _) rfl]
      exact hset
    · exact hset
  rcases advance_whenStopped_cases s { s with options := some options } "set options of" hx
    with ⟨hstate, hc, hr⟩ | ⟨hstate, ⟨answer, hc, hr⟩ | ⟨errno, hc, hr⟩⟩
  all_goals
    unfold setOptions
    rw [hc, hr]
  · exact .refused "set options of" hstate
  · exact .optionsSet answer hstate
  · exact .optionsNotSet errno hstate

theorem reading_apply (s : Session) (wrap : α → Outcome) (x : Attempt α) (replies : List Reply) :
    (Operation.reading s wrap x replies).calls = (x replies).calls ∧
      (Operation.reading s wrap x replies).result = ((x replies).result.map wrap, s) :=
  ⟨List.append_nil _, rfl⟩

theorem changing_apply (wrap : α → Outcome) (x : Tracer (Except Error α × Session))
    (replies : List Reply) :
    (Operation.changing wrap x replies).calls = (x replies).calls ∧
      (Operation.changing wrap x replies).result =
        ((x replies).result.1.map wrap, (x replies).result.2) :=
  ⟨List.append_nil _, rfl⟩

/-- A reading operation, carried out by `x`, is refused or asks only for what belongs to it. -/
def Reads (s : Session) (operation : Operation) (x : Attempt α) : Prop :=
  operation.Allowed s ∧ x.Asks (operation.ReadsBy s.pid) ∨
    ∃ what, ¬operation.Allowed s ∧ x = throw (s.refusal what)

/-- A reading operation takes one of the steps, whatever is made of its result. -/
theorem Reads.step {s : Session} {operation : Operation} {x : Attempt α}
    (hx : s.Reads operation x) (reading : operation.isReading = true) (wrap : α → Outcome)
    (replies : List Reply) :
    s.Step operation (Operation.reading s wrap x replies).calls
      (Operation.reading s wrap x replies).result.1
      (Operation.reading s wrap x replies).result.2 := by
  obtain ⟨hc, hr⟩ := reading_apply s wrap x replies
  rw [hc, hr]
  rcases hx with ⟨hallowed, hasks⟩ | ⟨what, hforbidden, rfl⟩
  · exact .read hallowed reading (hasks replies)
  · exact .refused what hforbidden

theorem reads_whenStopped {s : Session} {operation : Operation} {x : Attempt α}
    (hallowed : operation.Allowed s ↔ s.state = .stopped) (what : String)
    (hasks : x.Asks (operation.ReadsBy s.pid)) : s.Reads operation (s.whenStopped what x) := by
  by_cases hstate : s.state = .stopped
  · rw [whenStopped_of_stopped hstate]
    exact Or.inl ⟨hallowed.2 hstate, hasks⟩
  · exact Or.inr ⟨what, fun h => hstate (hallowed.1 h), whenStopped_of_not_stopped hstate what x⟩

theorem reads_eventMessage (s : Session) : s.Reads .eventMessage s.eventMessage := by
  unfold eventMessage
  by_cases hstate : s.state = .stopped
  · rw [whenStopped_of_stopped hstate]
    by_cases hevent : s.lastStop.any Stop.isEvent = true
    · rw [if_pos hevent]
      refine Or.inl ⟨⟨hstate, hevent⟩, Attempt.Asks.bind ?_ fun _ => Attempt.asks_pure _⟩
      exact Attempt.asks_askOr _ rfl
    · rw [if_neg hevent]
      exact Or.inr ⟨_, fun h => hevent h.2, rfl⟩
  · exact Or.inr ⟨_, fun h => hstate h.1, whenStopped_of_not_stopped hstate _ _⟩

/-- Carrying out an operation is one of the steps. -/
theorem step_perform (s : Session) (operation : Operation) (replies : List Reply) :
    s.Step operation (operation.perform s replies).calls (operation.perform s replies).result.1
      (operation.perform s replies).result.2 := by
  cases operation with
  | wait =>
    obtain ⟨hc, hr⟩ := changing_apply .stop s.wait replies
    rw [Operation.perform, hc, hr]
    exact step_wait s replies
  | resume signal =>
    obtain ⟨hc, hr⟩ := changing_apply (fun _ => .done) (s.resume signal) replies
    rw [Operation.perform, hc, hr]
    exact step_resume s signal replies
  | setOptions options =>
    obtain ⟨hc, hr⟩ := changing_apply (fun _ => .done) (s.setOptions options) replies
    rw [Operation.perform, hc, hr]
    exact step_setOptions s options replies
  | eventMessage => exact (reads_eventMessage s).step rfl .word replies
  | readRegister field =>
    have h : s.Reads (.readRegister field) (s.readRegister field) :=
      reads_whenStopped Iff.rfl _ (field.asks_read s.pid rfl)
    exact h.step rfl .word replies
  | filterAt index =>
    have h : s.Reads (.filterAt index) (s.filterAt index) :=
      reads_whenStopped Iff.rfl _ (SeccompFilter.asks_read s.pid index fun c => ⟨c, rfl⟩)
    exact h.step rfl .filter replies
  | filters limit =>
    have h : s.Reads (.filters limit) (s.filters limit) :=
      reads_whenStopped Iff.rfl _ (SeccompFilter.asks_readAll s.pid limit fun i c => ⟨i, c, rfl⟩)
    exact h.step rfl .filters replies
  | peek address =>
    have h : s.Reads (.peek address) (s.peek address) :=
      reads_whenStopped Iff.rfl _ (Tracee.asks_peek s.pid address rfl)
    exact h.step rfl .word replies
  | machine =>
    have h : s.Reads .machine s.machine :=
      Or.inl ⟨trivial, Machine.asks_ofExecutable s.pid rfl⟩
    exact h.step rfl .machine replies

end Session

end ProcTrace
