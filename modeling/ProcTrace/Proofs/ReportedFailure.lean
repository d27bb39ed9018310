import ProcTrace.Proofs.FirstFailure
import ProcTrace.Proofs.InstalledFilters

/-!
# Failures are reported

An `Action` is anything that a caller can ask for and that can fail. If a request fails on the way,
the action asks for nothing more and its error has the number of that failure
(`first_failure_reported`), the calls of a session that is dropped left out of account
(`Action.dropped`). Only the reading of a process's filters still detaches, and only there a failure
can be lost : if a filter is not as long as was reported, that is the error, whether or not the
process could be detached (`failed_detach_not_reported`).
-/

namespace ProcTrace

variable {α : Type} {chain : Bool} {previous : Option Call} {calls : List Call}

/-! ## Sessions -/

theorem Waits.getLast?_eq {pid : Pid} {reply : Reply} (h : Waits pid calls reply) :
    calls.getLast? = some ⟨.waitpid pid, reply⟩ := by
  obtain ⟨idle, rfl, _⟩ := h
  exact List.getLast?_concat

namespace Session

theorem surfaces_whenStopped {x : Attempt α} (hx : x.Surfaces chain) (s : Session)
    (operation : String) : (s.whenStopped operation x).Surfaces chain := by
  by_cases hs : s.state = .stopped
  · rw [whenStopped_of_stopped hs]
    exact hx
  · rw [whenStopped_of_not_stopped hs]
    exact Attempt.surfaces_throw _

theorem surfaced_advance {x : Attempt α} (hx : x.Surfaces chain) (s next : Session)
    (previous : Option Call) (replies : List Reply) :
    Surfaced chain previous (s.advance x next replies).calls
      (s.advance x next replies).result.1 := by
  have h := hx previous replies
  cases hr : (x replies).result with
  | ok a =>
    obtain ⟨hcalls, hresult⟩ := advance_of_ok (s := s) next hr
    rw [hcalls, hresult]
    rwa [hr] at h
  | error error =>
    obtain ⟨hcalls, hresult⟩ := advance_of_error (s := s) next hr
    rw [hcalls, hresult]
    rwa [hr] at h

theorem surfaced_awaitAttachStop (s : Session) (previous : Option Call) (replies : List Reply) :
    Surfaced chain previous (s.awaitAttachStop replies).calls
      (s.awaitAttachStop replies).result.1 := by
  have h : Surfaced chain previous (reachAttachStop s.pid replies).calls
      (reachAttachStop s.pid replies).result :=
    (inherited_surfaces s.pid).reachAttachStop previous replies
  cases hr : (reachAttachStop s.pid replies).result with
  | ok u =>
    obtain ⟨hcalls, hresult⟩ := awaitAttachStop_of_ok hr
    rw [hr] at h
    rw [hcalls, hresult]
    exact .of_none h.none_of_ok _
  | error error =>
    obtain ⟨hcalls, hresult⟩ := awaitAttachStop_of_error hr
    rw [hr] at h
    rw [hcalls, hresult]
    exact h.error

/-- A signal without an origin is no failure right after the stop that it may have caused. -/
theorem Classified.surfaced {s : Session} {change : Change} {probe : List Call}
    {classified : Except Error (Stop × Bool)} (h : s.Classified change probe classified)
    {reported : Call} (hreported : reported.change? = some change) :
    Surfaced chain (some reported) probe classified := by
  cases h with
  | ended | enter | leave | event | unknownEvent | delivery => exact .nil _
  | probedDelivery => exact .singleton fun errno hfails _ => nomatch hfails
  | @group signal maybe =>
    have hmay : reported.mayReportGroupStop = true := by
      simpa only [Call.mayReportGroupStop, hreported] using maybe
    refine .singleton fun errno hfails habsorbed => ?_
    obtain rfl : Errno.einval = errno := Option.some.inj hfails
    simp [Call.isAbsorbed, hmay] at habsorbed
  | @probeFailed signal errno =>
    refine .singleton fun failure hfails _ => ⟨_, rfl, ?_⟩
    obtain rfl : errno = failure := Option.some.inj hfails
    exact Error.errno?_ofErrno s.pid errno

theorem surfaced_wait (s : Session) (previous : Option Call) (replies : List Reply) :
    Surfaced chain previous (s.wait replies).calls (s.wait replies).result.1 := by
  cases hs : s.state with
  | attaching =>
    have hwait : s.wait = s.awaitAttachStop := by simp [wait, hs]
    rw [hwait]
    exact surfaced_awaitAttachStop s previous replies
  | continuing =>
    rcases wait_continuing_cases hs replies with ⟨reply, errno, hwaits, hends, hr⟩ |
      ⟨waits, probe, reply, reporter, change, classified, hwaits, hends, hmeans, hcalls, hr⟩
    · rw [hr]
      refine hwaits.surfaced hends fun failure hfailure => ⟨_, rfl, ?_⟩
      rw [← Except.error.inj hfailure, Error.errno?_ofErrno]
    · have hwaited : Surfaced chain previous waits (.ok () : Except Error Unit) :=
        hwaits.surfaced hends fun _ hfailure => by cases hfailure
      have hprobe : Surfaced chain (waits.getLast?.or previous) probe classified := by
        rw [hwaits.getLast?_eq]
        exact hmeans.surfaced hends.change?_eq
      rw [hcalls, hr]
      exact hwaited.append (hprobe.map _)
  | detached | stopped | exited =>
    have hwait : s.wait = pure (.error (s.refusal "wait on"), s) := by simp [wait, hs]
    rw [hwait]
    exact .nil _

theorem surfaces_apply_setOptions (s : Session) (options : TraceOptions) :
    (setOptions.apply s options).Surfaces chain := by
  unfold setOptions.apply
  split
  · exact (Attempt.surfaces_note _).bind fun _ => (inherited_surfaces s.pid).setOptions options
  · exact (inherited_surfaces s.pid).setOptions options

theorem surfaces_eventMessage (s : Session) : s.eventMessage.Surfaces chain := by
  refine surfaces_whenStopped ?_ s _
  split
  · exact (inherited_surfaces s.pid).eventMessage
  · exact Attempt.surfaces_throw _

end Session

/-- The operation reads a chain of filters. -/
def Operation.readsChain : Operation → Bool
  | filters _ => true
  | _ => false

theorem Operation.surfaced_perform (s : Session) (operation : Operation) (replies : List Reply) :
    Surfaced operation.readsChain previous (operation.perform s replies).calls
      (operation.perform s replies).result.1 := by
  have hreading {α : Type} {chain : Bool} {x : Attempt α} (hx : x.Surfaces chain)
      (wrap : α → Outcome) :
      Surfaced chain previous (reading s wrap x replies).calls
        (reading s wrap x replies).result.1 := by
    obtain ⟨hcalls, hresult⟩ := Session.reading_apply s wrap x replies
    rw [hcalls, hresult]
    exact (hx previous replies).map wrap
  have hchanging {α : Type} {x : Tracer (Except Error α × Session)} (wrap : α → Outcome)
      (hx : Surfaced false previous (x replies).calls (x replies).result.1) :
      Surfaced false previous (changing wrap x replies).calls
        (changing wrap x replies).result.1 := by
    obtain ⟨hcalls, hresult⟩ := Session.changing_apply wrap x replies
    rw [hcalls, hresult]
    exact hx.map wrap
  cases operation with
  | wait => exact hchanging .stop (s.surfaced_wait previous replies)
  | resume signal =>
    have hresume : (Tracee.resume s.pid signal).Surfaces false :=
      (inherited_surfaces s.pid).resume signal
    exact hchanging _ (Session.surfaced_advance
      (Session.surfaces_whenStopped hresume s _) s _ previous replies)
  | setOptions options =>
    exact hchanging _ (Session.surfaced_advance
      (Session.surfaces_whenStopped (s.surfaces_apply_setOptions options) s _) s _ previous replies)
  | eventMessage => exact hreading s.surfaces_eventMessage .word
  | readRegister field =>
    have hread : (field.read s.pid).Surfaces false :=
      (inherited_surfaces s.pid).readRegister field
    exact hreading (Session.surfaces_whenStopped hread s _) .word
  | filterAt index =>
    exact hreading (Session.surfaces_whenStopped (SeccompFilter.surfaces_read s.pid index) s _)
      .filter
  | filters limit =>
    exact hreading (Session.surfaces_whenStopped (SeccompFilter.surfaces_readAll s.pid limit) s _)
      .filters
  | peek address =>
    exact hreading (Session.surfaces_whenStopped (Tracee.surfaces_peek s.pid address) s _) .word
  | machine => exact hreading (Machine.surfaces_ofExecutable s.pid) .machine

/-! ## Openings -/

namespace Opening

/-- The calls of the session that is dropped if its wait fails. -/
def dropped (opening : Opening) (pid : Pid) (replies : List Reply) : List Call :=
  match opening.waits, (opening.begin pid replies).result with
  | true, .ok s =>
    let waited := s.wait (opening.begin pid replies).rest
    match waited.result.1 with
    | .ok _ => []
    | .error _ => (waited.result.2.drop waited.rest).calls
  | _, _ => []

theorem surfaces_begin (opening : Opening) (pid : Pid) : (opening.begin pid).Surfaces chain := by
  have hadopt : (Session.adopt pid).Surfaces chain :=
    (Attempt.surfaces_note _).bind fun _ => Attempt.surfaces_pure _
  cases opening with
  | attach | attachStopped => exact (inherited_surfaces pid).attach.bind fun _ => hadopt
  | adopt | adoptStopped => exact hadopt

/-- An opening reports its first failure, and drops the session only after a failure. -/
theorem surfaced_perform (opening : Opening) (pid : Pid) (previous : Option Call)
    (replies : List Reply) :
    ∃ own, (opening.perform pid replies).calls = own ++ opening.dropped pid replies ∧
      Surfaced chain previous own (opening.perform pid replies).result ∧
      ∀ s, (opening.perform pid replies).result = .ok s → opening.dropped pid replies = [] := by
  have hbegin : Surfaced chain previous (opening.begin pid replies).calls
      (opening.begin pid replies).result := opening.surfaces_begin pid previous replies
  cases hw : opening.waits with
  | false =>
    rw [perform_of_not_waits hw]
    simp only [dropped, hw, List.append_nil, implies_true, and_true]
    exact ⟨_, rfl, hbegin⟩
  | true =>
    rw [perform_of_waits hw]
    cases hr : (opening.begin pid replies).result with
    | error error =>
      rw [hr] at hbegin
      simp only [dropped, hw, hr, List.append_nil, implies_true, and_true]
      rw [Attempt.bind_of_error hr]
      exact ⟨_, rfl, hbegin.error⟩
    | ok s =>
      rw [hr] at hbegin
      have hwait := hbegin.append (s.surfaced_wait _ (opening.begin pid replies).rest)
      rw [Attempt.bind_of_ok hr]
      cases hwaited : (s.wait (opening.begin pid replies).rest).result.1 with
      | ok stop =>
        simp only [dropped, hw, hr, hwaited, List.append_nil, implies_true, and_true]
        rw [hwaited] at hwait
        rw [Session.waitOrDrop_of_ok hwaited]
        exact ⟨_, rfl, .of_none hwait.none_of_ok _⟩
      | error error =>
        simp only [dropped, hw, hr, hwaited]
        rw [hwaited] at hwait
        rw [Session.waitOrDrop_of_error hwaited]
        exact ⟨_, (List.append_assoc ..).symm, hwait.error, fun _ hok => nomatch hok⟩

end Opening

/-! ## Actions -/

/-- The attempt without the value that it gives. -/
def Attempt.forget (x : Attempt α) : Attempt Unit := fun replies =>
  (x replies).withResult ((x replies).result.map fun _ => ())

theorem Attempt.Surfaces.forget {x : Attempt α} (hx : x.Surfaces chain) :
    x.forget.Surfaces chain :=
  fun previous replies => (hx previous replies).map _

/-- Anything that a caller can ask for and that can fail with an error. -/
inductive Action
  | traceMe
  | traceMeAndStop (self : Pid)
  | attach (pid : Pid)
  | attachStopped (pid : Pid)
  | reachAttachStop (pid : Pid)
  | nextStop (pid : Pid)
  | detach (pid : Pid)
  | setOptions (pid : Pid) (options : TraceOptions)
  | resume (pid : Pid) (signal : Option Signal)
  | eventMessage (pid : Pid)
  | peek (pid : Pid) (address : UInt64)
  | readRegister (pid : Pid) (field : RegisterField)
  | filterAt (pid : Pid) (index : Nat)
  | filters (pid : Pid) (limit : Option Nat)
  | machine (pid : Pid)
  | installedFilters (pid : Pid) (limit : Option Nat)
  /-- Begin a session. -/
  | begin (opening : Opening) (pid : Pid)
  /-- Ask something of a session. -/
  | ask (s : Session) (operation : Operation)
  /-- End a session by detaching. -/
  | close (s : Session)

namespace Action

/-- Carries out the action. -/
def perform : Action → Attempt Unit
  | traceMe => ProcTrace.traceMe
  | traceMeAndStop self => ProcTrace.traceMeAndStop self
  | attach pid => Tracee.attach pid
  | attachStopped pid => Tracee.attachStopped pid
  | reachAttachStop pid => ProcTrace.reachAttachStop pid
  | nextStop pid => (ProcTrace.nextStop pid).forget
  | detach pid => Tracee.detach pid
  | setOptions pid options => Tracee.setOptions pid options
  | resume pid signal => Tracee.resume pid signal
  | eventMessage pid => (Tracee.eventMessage pid).forget
  | peek pid address => (Tracee.peek pid address).forget
  | readRegister pid field => (field.read pid).forget
  | filterAt pid index => (SeccompFilter.read pid index).forget
  | filters pid limit => (SeccompFilter.readAll pid limit).forget
  | machine pid => (Machine.ofExecutable pid).forget
  | installedFilters pid limit => (ProcTrace.installedFilters pid limit).forget
  | begin opening pid => (opening.perform pid).forget
  | ask s operation => fun replies =>
    let performed := operation.perform s replies
    performed.withResult (performed.result.1.map fun _ => ())
  | close s => s.detach

/-- The action reads a chain of filters. -/
def readsChain : Action → Bool
  | filters _ _ | installedFilters _ _ => true
  | ask _ operation => operation.readsChain
  | _ => false

/-- The calls of the session that is dropped in the course of the action : one whose first wait has
failed, or one that was to be detached while it is not stopped. -/
def dropped (replies : List Reply) : Action → List Call
  | installedFilters pid _ => Opening.attachStopped.dropped pid replies
  | begin opening pid => opening.dropped pid replies
  | close s => if s.state = .stopped then [] else (s.drop replies).calls
  | _ => []

end Action

namespace Session

/-- A session that is not stopped asks for nothing but what dropping it takes. -/
theorem surfaced_detach (s : Session) (replies : List Reply) :
    ∃ own, (s.detach replies).calls = own ++ (Action.close s).dropped replies ∧
      Surfaced chain previous own (s.detach replies).result := by
  by_cases hs : s.state = .stopped
  · refine ⟨(s.detach replies).calls, ?_, ?_⟩
    · rw [Action.dropped, if_pos hs, List.append_nil]
    · rw [detach, if_pos hs]
      exact (inherited_surfaces s.pid).detach previous replies
  · refine ⟨[], ?_, .nil _⟩
    rw [Action.dropped, if_neg hs, detach, if_neg hs]
    exact List.append_nil _

end Session

/-! ## Reading the filters of a process -/

/-- A failure in the reading of a process's filters is reported, and at most the request to detach
follows it. Or else it is this request that fails, and is not reported since a filter was not as
long as had been said. -/
def Call.ReportedOrLost (pid : Pid) (call : Call) (after : List Call) (result : Except Error α) :
    Prop :=
  (call.ReportedBy result ∧ (after = [] ∨ ∃ reply, after = [⟨.detach pid none, reply⟩])) ∨
    ∃ reply expected actual, call = ⟨.detach pid none, reply⟩ ∧ after = [] ∧
      result = .error (.transferMismatch pid "seccomp filter instructions" expected actual)

theorem Call.ReportedOrLost.map {pid : Pid} {call : Call} {after : List Call}
    {result : Except Error α} (h : call.ReportedOrLost pid after result) (f : α → Unit) :
    call.ReportedOrLost pid after (result.map f) := by
  rcases h with ⟨hreported, hafter⟩ | ⟨reply, expected, actual, hcall, hafter, rfl⟩
  · exact Or.inl ⟨hreported.map f, hafter⟩
  · exact Or.inr ⟨reply, expected, actual, hcall, hafter, rfl⟩

/-- The filters of a stopped tracee are read and it is detached : the first failure is that of a
request for a filter if there is one, and that of detaching if not. -/
theorem reportedOrLost_read_detach (pid : Pid) (limit : Option Nat) (previous : Option Call)
    (replies : List Reply) {call : Call} {after : List Call} :
    let reading := SeccompFilter.readAll pid limit replies
    let detached := Tracee.detach pid reading.rest
    firstFailure? true previous (reading.calls ++ detached.calls) = some (call, after) →
      call.ReportedOrLost pid after (firstError reading.result detached.result) := by
  intro reading detached hfirst
  have haccounted := SeccompFilter.accounted_readAll pid limit previous replies
  obtain ⟨reply, hdetach⟩ : ∃ reply, detached.calls = [⟨.detach pid none, reply⟩] :=
    Session.exists_calls_detach pid reading.rest
  have hdetached (last : Option Call) : Surfaced true last detached.calls detached.result :=
    (inherited_surfaces pid).detach last reading.rest
  change SeccompFilter.Accounted pid previous reading.calls reading.result at haccounted
  generalize reading.result = read at haccounted ⊢
  cases haccounted with
  | read filters faultless =>
    rw [firstFailure?_append_of_none faultless] at hfirst
    obtain ⟨hafter, errno, error, hfails, herror, herrno⟩ := hdetached _ call after hfirst
    exact Or.inl ⟨⟨errno, error, hfails, by rw [herror]; rfl, herrno⟩, Or.inl hafter⟩
  | mismatched expected actual faultless =>
    rw [firstFailure?_append_of_none faultless, hdetach] at hfirst
    obtain ⟨rfl, rfl⟩ := eq_of_firstFailure?_singleton hfirst
    exact Or.inr ⟨reply, expected, actual, rfl, rfl, rfl⟩
  | refused errno fails first =>
    rw [firstFailure?_append_of_some first] at hfirst
    cases hfirst
    exact Or.inl ⟨⟨errno, _, fails, rfl, Error.errno?_ofErrno pid errno⟩,
      Or.inr ⟨reply, hdetach⟩⟩

/-- So it is for a process that is attached first. A session that is dropped meanwhile is left out
of account. -/
theorem reportedOrLost_installedFilters (pid : Pid) (limit : Option Nat) (replies : List Reply) :
    let dumped := installedFilters pid limit replies
    ∃ own, dumped.calls = own ++ Opening.attachStopped.dropped pid replies ∧
      ∀ call after, firstFailure? true none own = some (call, after) →
        call.ReportedOrLost pid after dumped.result := by
  intro dumped
  obtain ⟨own, hown, hsurfaced, hdropped⟩ :
      ∃ own, (Session.attachStopped pid replies).calls =
          own ++ Opening.attachStopped.dropped pid replies ∧
        Surfaced true none own (Session.attachStopped pid replies).result ∧
        ∀ s, (Session.attachStopped pid replies).result = .ok s →
          Opening.attachStopped.dropped pid replies = [] :=
    Opening.attachStopped.surfaced_perform pid none replies
  cases hopened : (Session.attachStopped pid replies).result with
  | error error =>
    obtain ⟨hcalls, hresult⟩ := installedFilters_of_error limit hopened
    rw [hopened] at hsurfaced
    refine ⟨own, hcalls.trans hown, fun call after hfirst => ?_⟩
    obtain ⟨hafter, hreported⟩ := hsurfaced.error call after hfirst
    exact Or.inl ⟨hresult ▸ hreported, Or.inl hafter⟩
  | ok s =>
    obtain ⟨hstopped, hpid⟩ := Session.stopped_of_attachStopped hopened
    obtain ⟨hcalls, hresult⟩ := installedFilters_of_stopped limit hopened hstopped hpid
    rw [hopened] at hsurfaced
    rw [hdropped s hopened, List.append_nil] at hown
    refine ⟨dumped.calls, by rw [hdropped s hopened, List.append_nil], fun call after hfirst => ?_⟩
    rw [hcalls, hown, firstFailure?_append_of_none hsurfaced.none_of_ok] at hfirst
    exact hresult ▸ reportedOrLost_read_detach pid limit _ _ hfirst

/-! ## Every action -/

namespace Action

/-- Every other action reports its first failure. -/
theorem surfaced_perform (action : Action) (replies : List Reply)
    (hother : ∀ pid limit, action ≠ .installedFilters pid limit) :
    ∃ own, (action.perform replies).calls = own ++ action.dropped replies ∧
      Surfaced action.readsChain none own (action.perform replies).result := by
  have hplain {x : Attempt Unit} {chain : Bool} (hx : x.Surfaces chain) :
      ∃ own, (x replies).calls = own ++ [] ∧ Surfaced chain none own (x replies).result :=
    ⟨_, (List.append_nil _).symm, hx none replies⟩
  cases action with
  | traceMe => exact hplain surfaces_traceMe
  | traceMeAndStop self => exact hplain (surfaces_traceMeAndStop self)
  | attach pid => exact hplain (inherited_surfaces pid).attach
  | attachStopped pid => exact hplain (inherited_surfaces pid).attachStopped
  | reachAttachStop pid => exact hplain (inherited_surfaces pid).reachAttachStop
  | nextStop pid => exact hplain (surfaces_nextStop pid).forget
  | detach pid => exact hplain (inherited_surfaces pid).detach
  | setOptions pid options => exact hplain ((inherited_surfaces pid).setOptions options)
  | resume pid signal => exact hplain ((inherited_surfaces pid).resume signal)
  | eventMessage pid => exact hplain (inherited_surfaces pid).eventMessage.forget
  | peek pid address => exact hplain (Tracee.surfaces_peek pid address).forget
  | readRegister pid field => exact hplain ((inherited_surfaces pid).readRegister field).forget
  | filterAt pid index => exact hplain (SeccompFilter.surfaces_read pid index).forget
  | filters pid limit => exact hplain (SeccompFilter.surfaces_readAll pid limit).forget
  | machine pid => exact hplain (Machine.surfaces_ofExecutable pid).forget
  | installedFilters pid limit => exact absurd rfl (hother pid limit)
  | begin opening pid =>
    obtain ⟨own, hown, hsurfaced, _⟩ := opening.surfaced_perform pid none replies
    exact ⟨own, hown, hsurfaced.map _⟩
  | ask s operation =>
    exact ⟨_, (List.append_nil _).symm, (operation.surfaced_perform s replies).map _⟩
  | close s => exact s.surfaced_detach replies

end Action

/-- Whatever a caller asks for and whatever the kernel replies, the first of an action's own calls
whose failure has to be reported is its last one, and its error has the error number of that
failure. Only the reading of a process's filters goes on to detach, and it does not report that this
failed if a filter was not as long as had been said. -/
theorem first_failure_reported (action : Action) (replies : List Reply) :
    let done := action.perform replies
    ∃ own, done.calls = own ++ action.dropped replies ∧
      ∀ call after, firstFailure? action.readsChain none own = some (call, after) →
        (after = [] ∧ call.ReportedBy done.result) ∨
          ∃ pid limit, action = .installedFilters pid limit ∧
            call.ReportedOrLost pid after done.result := by
  intro done
  by_cases hinstalled : ∃ pid limit, action = .installedFilters pid limit
  · obtain ⟨pid, limit, rfl⟩ := hinstalled
    obtain ⟨own, hown, hfirst⟩ := reportedOrLost_installedFilters pid limit replies
    exact ⟨own, hown, fun call after hcall => Or.inr ⟨pid, limit, rfl, (hfirst _ _ hcall).map _⟩⟩
  · obtain ⟨own, hown, hsurfaced⟩ := action.surfaced_perform replies fun pid limit h =>
      hinstalled ⟨pid, limit, h⟩
    exact ⟨own, hown, fun call after hcall => Or.inl (hsurfaced call after hcall)⟩

/-- An interrupted wait is not the first failure : it is that of the signal sent again. -/
example :
    let done := (Action.attachStopped ⟨5⟩).perform [.ok {}, .error .eintr,
      .ok { status := 0x0a7f }, .ok {}, .ok { status := 0x137f }, .error .eperm]
    (firstFailure? false none done.calls).map (fun found => (found.1.request, found.2.length)) =
      some (.kill ⟨5⟩ .usr1, 0) := by
  decide +kernel

/-- A filter turns out to be longer than was counted, and then the process cannot be let go. The
error is that of reading, and the failure to detach is lost. -/
theorem failed_detach_not_reported :
    let action := Action.installedFilters ⟨5⟩ none
    let replies : List Reply := [.ok {}, .ok { status := 0x137f }, .ok { returned := some 1 },
      .ok { returned := some 2 }, .error .eperm]
    let done := action.perform replies
    action.dropped replies = [] ∧
      ∃ call after, firstFailure? action.readsChain none done.calls = some (call, after) ∧
        call.request = .detach ⟨5⟩ none ∧ call.failure? = some .eperm ∧
        ¬call.ReportedBy done.result := by
  intro action replies done
  have hfirst : (firstFailure? action.readsChain none done.calls).map
      (fun found => (found.1.request, found.1.failure?)) =
        some (.detach ⟨5⟩ none, some .eperm) := by decide +kernel
  have herror : errorOf? done.result =
      some (.transferMismatch ⟨5⟩ "seccomp filter instructions" 1 2) := by decide +kernel
  have hdropped : (action.dropped replies).isEmpty = true := by decide +kernel
  obtain ⟨⟨call, after⟩, hfound, hcall⟩ := Option.map_eq_some_iff.1 hfirst
  obtain ⟨hrequest, hfails⟩ := Prod.mk.inj hcall
  refine ⟨List.isEmpty_iff.1 hdropped, call, after, hfound, hrequest, hfails, ?_⟩
  rintro ⟨errno, error, _, hresult, herrno⟩
  rw [hresult] at herror
  obtain rfl := Option.some.inj herror
  cases herrno

end ProcTrace
