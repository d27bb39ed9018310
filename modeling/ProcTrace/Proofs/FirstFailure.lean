import ProcTrace.Proofs.Inherited
import ProcTrace.Proofs.Session.Step

/-!
# The first failure in a transcript

Some failures are what a caller waits for : an interrupted request is made again, a stop whose
signal has no origin is a group-stop, and a chain of filters ends where there is no filter
(`Call.isAbsorbed`). `firstFailure?` finds the first failure in a transcript that is not one of
these, with what is asked after it.

A transcript is `Surfaced` if nothing is asked after its first failure, and the result is an error
with the number of it. Single requests are, sequences and loops keep it (`Attempt.Surfaces.bind`,
`Attempt.Surfaces.loop`), and so everything that is asked about a tracee is surfaced.
-/

namespace ProcTrace

variable {α β σ : Type}

/-! ## Failures -/

/-- The error that a result holds, none if it is a success. -/
def errorOf? : Except β α → Option β
  | .error error => some error
  | .ok _ => none

namespace Call

/-- The error number with which a call fails. A wait whose status word has no reading fails as
invalid. The word of ones looks like a failure, but leaves no error number behind. -/
def failure? (call : Call) : Option Errno :=
  match call.request with
  | .waitpid pid => errorOf? (call.reply.waitStatus pid)
  | .peekData _ _ => (errorOf? call.reply).filter (· ≠ .unknown)
  | _ => errorOf? call.reply

/-- The call reports a stop by a signal that may have stopped a group. -/
def mayReportGroupStop (call : Call) : Bool :=
  match call.change? with
  | some (.stopped (.signal signal)) => signal.mayStopGroup
  | _ => false

/-- A failure with this error number is no reason to fail, after the call `previous` and, if `chain`
holds, while a chain of filters is being read. -/
def isAbsorbed (chain : Bool) (previous : Option Call) (call : Call) (errno : Errno) : Bool :=
  match call.request with
  | .waitpid _ | .openExecutable _ => errno = .eintr
  | .signalInfo _ => errno = .einval && previous.any mayReportGroupStop
  | .seccompFilter _ _ _ => chain && (errno = .enoent || errno = .einval)
  | _ => false

/-- The call fails in a way that has to be reported. -/
def isFailure (chain : Bool) (previous : Option Call) (call : Call) : Bool :=
  call.failure?.any fun errno => !call.isAbsorbed chain previous errno

/-- The result is an error with the number of the failed call. -/
def ReportedBy (call : Call) (result : Except Error α) : Prop :=
  ∃ errno error, call.failure? = some errno ∧ result = .error error ∧ error.errno? = some errno

end Call

/-- What else the result says is of no account. -/
theorem Call.ReportedBy.map {call : Call} {result : Except Error α} (h : call.ReportedBy result)
    (f : α → β) : call.ReportedBy (result.map f) := by
  obtain ⟨errno, error, hfails, rfl, herrno⟩ := h
  exact ⟨errno, error, hfails, rfl, herrno⟩

/-- The first failure that has to be reported, with the calls after it. The calls come after the
call `previous`. -/
def firstFailure? (chain : Bool) : Option Call → List Call → Option (Call × List Call)
  | _, [] => none
  | previous, call :: calls =>
    if call.isFailure chain previous then some (call, calls)
    else firstFailure? chain (some call) calls

/-- Nothing is asked after the first failure, and the result reports it. -/
def Surfaced (chain : Bool) (previous : Option Call) (calls : List Call)
    (result : Except Error α) : Prop :=
  ∀ call after, firstFailure? chain previous calls = some (call, after) →
    after = [] ∧ call.ReportedBy result

variable {chain : Bool} {previous : Option Call} {call : Call} {calls xs ys : List Call}
  {result : Except Error α}

/-- The first failure of some calls is in their first part, or else in the second. What counts as a
failure at the beginning of the second part depends on the last call of the first. -/
theorem firstFailure?_append (chain : Bool) (previous : Option Call) (xs ys : List Call) :
    firstFailure? chain previous (xs ++ ys) =
      match firstFailure? chain previous xs with
      | some (call, after) => some (call, after ++ ys)
      | none => firstFailure? chain (xs.getLast?.or previous) ys := by
  induction xs generalizing previous with
  | nil => rfl
  | cons call xs ih =>
    simp only [List.cons_append, firstFailure?]
    split
    · rfl
    · rw [ih, List.getLast?_cons]
      cases xs.getLast? <;> rfl

theorem firstFailure?_append_of_none (h : firstFailure? chain previous xs = none)
    (ys : List Call) :
    firstFailure? chain previous (xs ++ ys) = firstFailure? chain (xs.getLast?.or previous) ys := by
  rw [firstFailure?_append, h]

theorem firstFailure?_append_of_some {after : List Call}
    (h : firstFailure? chain previous xs = some (call, after)) (ys : List Call) :
    firstFailure? chain previous (xs ++ ys) = some (call, after ++ ys) := by
  rw [firstFailure?_append, h]

theorem firstFailure?_singleton_of_failure (h : call.isFailure chain previous = true) :
    firstFailure? chain previous [call] = some (call, []) :=
  if_pos h

theorem firstFailure?_singleton_of_not_failure (h : call.isFailure chain previous = false) :
    firstFailure? chain previous [call] = none :=
  if_neg (by simp [h])

theorem eq_of_firstFailure?_singleton {found : Call} {after : List Call}
    (h : firstFailure? chain previous [call] = some (found, after)) :
    found = call ∧ after = [] := by
  cases hfailure : call.isFailure chain previous with
  | true =>
    cases (firstFailure?_singleton_of_failure hfailure).symm.trans h
    exact ⟨rfl, rfl⟩
  | false => cases (firstFailure?_singleton_of_not_failure hfailure).symm.trans h

/-- Calls that are no failures wherever they stand. -/
theorem firstFailure?_eq_none_of_forall
    (h : ∀ call ∈ calls, ∀ previous, call.isFailure chain previous = false) :
    firstFailure? chain previous calls = none := by
  induction calls generalizing previous with
  | nil => rfl
  | cons call calls ih =>
    rw [firstFailure?, if_neg (by simp [h call (List.mem_cons_self ..)])]
    exact ih fun later hlater => h later (List.mem_cons_of_mem _ hlater)

/-- A failure that the caller waits for counts as none. -/
theorem Call.isFailure_of_absorbed (errno : Errno) (hfails : call.failure? = some errno)
    (habsorbed : call.isAbsorbed chain previous errno = true) :
    call.isFailure chain previous = false := by
  simp [isFailure, hfails, habsorbed]

theorem Call.isFailure_of_succeeds (h : call.failure? = none) :
    call.isFailure chain previous = false := by
  simp [isFailure, h]

namespace Surfaced

/-- Without a failure there is nothing to report. -/
theorem of_none (h : firstFailure? chain previous calls = none) (result : Except Error α) :
    Surfaced chain previous calls result := by
  intro call after hfirst
  cases h.symm.trans hfirst

theorem nil (result : Except Error α) : Surfaced chain previous [] result :=
  of_none rfl result

/-- A success tells that there was no failure. -/
theorem none_of_ok {a : α} (h : Surfaced chain previous calls (.ok a : Except Error α)) :
    firstFailure? chain previous calls = none := by
  cases hfirst : firstFailure? chain previous calls with
  | none => rfl
  | some found =>
    obtain ⟨_, _, _, _, herror, _⟩ := h found.1 found.2 hfirst
    cases herror

/-- A single call has to be reported only if its failure is not absorbed. -/
theorem singleton
    (h : ∀ errno, call.failure? = some errno → call.isAbsorbed chain previous errno = false →
      ∃ error, result = .error error ∧ error.errno? = some errno) :
    Surfaced chain previous [call] result := by
  cases hfails : call.failure? with
  | none =>
    exact of_none (firstFailure?_singleton_of_not_failure (Call.isFailure_of_succeeds hfails)) _
  | some errno =>
    cases habsorbed : call.isAbsorbed chain previous errno with
    | true =>
      exact of_none (firstFailure?_singleton_of_not_failure
        (Call.isFailure_of_absorbed errno hfails habsorbed)) _
    | false =>
      obtain ⟨error, hresult, herrno⟩ := h errno hfails habsorbed
      intro found after hfirst
      obtain ⟨rfl, rfl⟩ := eq_of_firstFailure?_singleton hfirst
      exact ⟨rfl, errno, error, hfails, hresult, herrno⟩

/-- Calls that follow a success. -/
theorem append {a : α} {last : Except Error β}
    (hx : Surfaced chain previous xs (.ok a : Except Error α))
    (hy : Surfaced chain (xs.getLast?.or previous) ys last) :
    Surfaced chain previous (xs ++ ys) last := by
  intro call after hfirst
  rw [firstFailure?_append_of_none hx.none_of_ok] at hfirst
  exact hy call after hfirst

theorem map (h : Surfaced chain previous calls result) (f : α → β) :
    Surfaced chain previous calls (result.map f) := fun call after hfirst =>
  ⟨(h call after hfirst).1, (h call after hfirst).2.map f⟩

/-- An error is passed on as one of another kind of result. -/
theorem error {error : Error} (h : Surfaced chain previous calls (.error error : Except Error α)) :
    Surfaced chain previous calls (.error error : Except Error β) := by
  intro call after hfirst
  obtain ⟨hafter, errno, failure, hfails, hresult, herrno⟩ := h call after hfirst
  cases hresult
  exact ⟨hafter, errno, error, hfails, rfl, herrno⟩

end Surfaced

/-! ## Requests, sequences and loops -/

namespace Attempt

/-- The attempt asks nothing after its first failure, and reports it. -/
def Surfaces (chain : Bool) (x : Attempt α) : Prop :=
  ∀ previous replies, Surfaced chain previous (x replies).calls (x replies).result

theorem surfaces_pure (a : α) : Surfaces chain (pure a : Attempt α) :=
  fun _ _ => .nil _

theorem surfaces_throw (error : Error) : Surfaces chain (throw error : Attempt α) :=
  fun _ _ => .nil _

theorem surfaces_note (record : Record) : Surfaces chain (note record) :=
  fun _ _ => .nil _

/-- A request that has to succeed reports its failure, if the error that it names has the number of
it. A wait can fail though it is answered, so this does not hold of it. -/
theorem surfaces_askOr {cause : Errno → Error}
    (hcause : ∀ errno, (cause errno).errno? = some errno) {request : Request}
    (hwait : ∀ pid, request ≠ .waitpid pid) : Surfaces chain (askOr cause request) := by
  intro previous replies
  rcases askOr_cases cause request replies with ⟨answer, hc, _⟩ | ⟨errno, hc, hr⟩
  · rw [hc]
    refine .singleton fun errno hfails _ => ?_
    cases request with
    | waitpid pid => exact absurd rfl (hwait pid)
    | _ => cases hfails
  · rw [hc, hr]
    refine .singleton fun failure hfails _ => ⟨_, rfl, ?_⟩
    have hfailure : failure = errno := by
      cases request with
      | waitpid pid => exact absurd rfl (hwait pid)
      | peekData =>
        simp only [Call.failure?, errorOf?, Option.filter_eq_some_iff, Option.some.injEq] at hfails
        exact hfails.1.symm
      | _ => exact (Option.some.inj hfails).symm
    rw [hfailure, hcause]

theorem surfaces_ask (pid : Pid) {request : Request} (hwait : ∀ pid, request ≠ .waitpid pid) :
    Surfaces chain (ask pid request) :=
  surfaces_askOr (Error.errno?_ofErrno pid) hwait

theorem surfaces_commandOr {cause : Errno → Error}
    (hcause : ∀ errno, (cause errno).errno? = some errno) {request : Request}
    (hwait : ∀ pid, request ≠ .waitpid pid) : Surfaces chain (commandOr cause request) :=
  fun previous replies => (surfaces_askOr hcause hwait previous replies).map _

theorem surfaces_command (pid : Pid) {request : Request} (hwait : ∀ pid, request ≠ .waitpid pid) :
    Surfaces chain (command pid request) :=
  surfaces_commandOr (Error.errno?_ofErrno pid) hwait

/-- After a failure of the first part there is no second, and the error is the same. -/
theorem Surfaces.bind {x : Attempt α} {f : α → Attempt β} (hx : Surfaces chain x)
    (hf : ∀ a, Surfaces chain (f a)) : Surfaces chain (x >>= f) := by
  intro previous replies
  have hfirst := hx previous replies
  rcases bind_cases x f replies with ⟨error, hr, h⟩ | ⟨a, hr, h⟩
  · rw [hr] at hfirst
    rw [h]
    exact hfirst.error
  · rw [hr] at hfirst
    rw [h]
    exact hfirst.append (hf a _ _)

/-- A loop stops at the first failure of a step. -/
theorem Surfaces.loop {step : σ → Attempt (α ⊕ σ)}
    {progress : ∀ state replies next, (step state replies).result = .ok (.inr next) →
      (step state replies).rest.length < replies.length}
    (h : ∀ state, Surfaces chain (step state)) (state : σ) :
    Surfaces chain (Attempt.loop step progress state) := by
  intro previous replies
  -- The steps before leave another call behind, so the property is carried for every call before.
  refine loop_induction
    (motive := fun _ _ x => ∀ previous, Surfaced chain previous x.calls x.result)
    ?failed ?done ?next state replies previous
  case failed =>
    intro state replies error hr previous
    have hstep := h state previous replies
    rw [hr] at hstep
    exact hstep.error
  case done =>
    intro state replies a hr previous
    have hstep := h state previous replies
    rw [hr] at hstep
    exact .of_none hstep.none_of_ok _
  case next =>
    intro state replies next hr ih previous
    have hstep := h state previous replies
    rw [hr] at hstep
    exact hstep.append (ih _)

end Attempt

/-! ## Waits -/

/-- An interrupted wait is repeated. -/
theorem isFailure_of_idle {pid : Pid} (hrequest : call.request = .waitpid pid)
    (hidle : call.reply.Idle pid) : call.isFailure chain previous = false := by
  unfold Reply.Idle at hidle
  have hfailure : call.failure? = errorOf? (call.reply.waitStatus pid) := by
    simp only [Call.failure?, hrequest]
  cases hs : call.reply.waitStatus pid with
  | ok status => exact Call.isFailure_of_succeeds (by rw [hfailure, hs]; rfl)
  | error errno =>
    rw [hs] at hidle
    refine Call.isFailure_of_absorbed errno (by rw [hfailure, hs]; rfl) ?_
    simpa only [Call.isAbsorbed, hrequest, decide_eq_true_eq] using hidle

/-- A wait fails in its last call, if at all. -/
theorem Waits.surfaced {pid : Pid} {reply : Reply} {waited : Except Errno (Pid × Change)}
    (h : Waits pid calls reply) (ends : reply.Ends pid waited)
    (hresult : ∀ errno, waited = .error errno →
      ∃ error, result = .error error ∧ error.errno? = some errno) :
    Surfaced chain previous calls result := by
  obtain ⟨idle, rfl, hidle⟩ := h
  have hbefore : firstFailure? chain previous idle = none :=
    firstFailure?_eq_none_of_forall fun call hcall _ =>
      isFailure_of_idle (hidle call hcall).1 (hidle call hcall).2
  refine Surfaced.append (.of_none hbefore (.ok ())) (.singleton fun errno hfails _ => ?_)
  cases ends with
  | changed status =>
    simp only [Call.failure?, status, errorOf?] at hfails
    cases hfails
  | failed status =>
    simp only [Call.failure?, status, errorOf?] at hfails
    cases hfails
    exact hresult _ rfl

/-- The end of the tracee is no failed call, though the wait for a stop fails with it. -/
theorem surfaces_nextStop (pid : Pid) : (nextStop pid).Surfaces chain := by
  intro previous replies
  rcases nextStop_cases pid replies with ⟨reporter, report, hseen, hr⟩ | ⟨error, hmissed, hr⟩
  · obtain ⟨reply, _, hwaits, hends⟩ := hseen
    exact hwaits.surfaced hends fun _ herror => nomatch herror
  · rw [hr]
    cases hmissed with
    | failed waits ends =>
      refine waits.surfaced ends fun errno herror => ⟨_, rfl, ?_⟩
      rw [← Except.error.inj herror, Error.errno?_ofErrno]
    | ended waits ends => exact waits.surfaced ends fun _ herror => nomatch herror

/-- What is put together from waits, requests and notes reports its first failure. -/
theorem inherited_surfaces (pid : Pid) : Attempt.Inherited pid fun _ => Attempt.Surfaces chain where
  pure := Attempt.surfaces_pure
  throw := Attempt.surfaces_throw
  note _ := Attempt.surfaces_note _
  ask h := Attempt.surfaces_ask pid (Request.ne_waitpid h)
  command h := Attempt.surfaces_command pid (Request.ne_waitpid h)
  nextStop := surfaces_nextStop pid
  bind := Attempt.Surfaces.bind
  loop := Attempt.Surfaces.loop

/-! ## Requests about a tracee -/

theorem surfaces_traceMe : traceMe.Surfaces chain :=
  Attempt.surfaces_commandOr (fun _ => rfl) (by simp)

theorem surfaces_traceMeAndStop (self : Pid) : (traceMeAndStop self).Surfaces chain :=
  surfaces_traceMe.bind fun _ => Attempt.surfaces_commandOr (fun _ => rfl) (by simp)

/-- The word of ones is no failure. -/
theorem Tracee.surfaces_peek (pid : Pid) (address : UInt64) :
    (peek pid address).Surfaces chain := by
  intro previous replies
  obtain ⟨reply, hcalls, hresult⟩ :
      ∃ reply, (peek pid address replies).calls = [⟨.peekData pid address, reply⟩] ∧
        (peek pid address replies).result = wordOfReply pid reply := by
    cases replies with
    | nil => exact ⟨_, rfl, rfl⟩
    | cons reply rest => exact ⟨reply, rfl, rfl⟩
  rw [hcalls, hresult]
  refine .singleton fun errno hfails _ => ?_
  cases reply with
  | ok answer => cases hfails
  | error failure =>
    simp only [Call.failure?, errorOf?, Option.filter_eq_some_iff, Option.some.injEq,
      decide_eq_true_eq] at hfails
    obtain ⟨rfl, hknown⟩ := hfails
    exact ⟨.ofErrno pid failure, if_neg hknown, Error.errno?_ofErrno pid failure⟩

/-- An interrupted attempt to open the executable is not the last one. -/
theorem Machine.surfaces_ofExecutable (pid : Pid) : (ofExecutable pid).Surfaces chain := by
  intro previous replies
  obtain ⟨passed, reply, hcalls, hpassed, hlast⟩ :=
    Tracer.exists_calls_askUntil (.openExecutable pid) judgeOpen (judgeOpen_lastErrno pid) replies
  have hbefore : firstFailure? chain previous passed = none := by
    refine firstFailure?_eq_none_of_forall fun call hcall previous => ?_
    obtain ⟨hrequest, records, hjudge⟩ := hpassed call hcall
    obtain ⟨request, reply⟩ := call
    obtain rfl : request = .openExecutable pid := hrequest
    cases reply with
    | ok opened => cases hjudge
    | error errno =>
      by_cases h : errno = .eintr
      · exact Call.isFailure_of_absorbed errno rfl (by simp [Call.isAbsorbed, h])
      · simp [judgeOpen, h] at hjudge
  simp only [ofExecutable, Exchange.calls_withResult, Exchange.result_withResult, hcalls]
  refine Surfaced.append (.of_none hbefore (.ok ())) (.singleton fun errno hfails _ => ?_)
  cases reply with
  | ok opened => cases hfails
  | error failure =>
    obtain rfl : failure = errno := Option.some.inj hfails
    by_cases h : failure = .eintr
    · simp [judgeOpen, h] at hlast
    · simp only [judgeOpen, if_neg h, Sum.inl.injEq] at hlast
      rw [← hlast]
      exact ⟨.file (.errno failure), rfl, rfl⟩

/-! ## Filters -/

namespace SeccompFilter

theorem errno?_readError (pid : Pid) (index : Nat) (errno : Errno) :
    (readError pid index errno).errno? = some errno := by
  unfold readError
  split
  · rfl
  · exact Error.errno?_ofErrno pid errno

theorem surfaces_read (pid : Pid) (index : Nat) : (read pid index).Surfaces chain :=
  (inherited_surfaces pid).readFilter fun _ =>
    Attempt.surfaces_askOr (errno?_readError pid index) (by simp)

/-- What the reading of filters comes to, with the first failure in its calls. It fails with the
number of that failure, or because a filter is not as long as was reported. -/
inductive Accounted (pid : Pid) (previous : Option Call) (calls : List Call) :
    Except Error α → Prop
  | read (a : α) (faultless : firstFailure? true previous calls = none) :
      Accounted pid previous calls (.ok a)
  | mismatched (expected actual : Nat) (faultless : firstFailure? true previous calls = none) :
      Accounted pid previous calls
        (.error (.transferMismatch pid "seccomp filter instructions" expected actual))
  | refused {call : Call} (errno : Errno) (fails : call.failure? = some errno)
      (first : firstFailure? true previous calls = some (call, [])) :
      Accounted pid previous calls (.error (.ofErrno pid errno))

/-- A mismatch is an error without a failed call, and every failed call is the last one. -/
theorem Accounted.surfaced {pid : Pid} (h : Accounted pid previous calls result) :
    Surfaced true previous calls result := by
  cases h with
  | read a faultless | mismatched expected actual faultless => exact .of_none faultless _
  | refused errno fails first =>
    intro call after hfirst
    cases first.symm.trans hfirst
    exact ⟨rfl, errno, _, fails, rfl, Error.errno?_ofErrno pid errno⟩

theorem Accounted.error {pid : Pid} {error : Error}
    (h : Accounted pid previous calls (.error error : Except Error α)) :
    Accounted pid previous calls (.error error : Except Error β) := by
  cases h with
  | mismatched expected actual faultless => exact .mismatched expected actual faultless
  | refused errno fails first => exact .refused errno fails first

/-- What is read after calls without a failure is accounted for as if it stood alone. -/
theorem Accounted.append {pid : Pid} (hx : firstFailure? true previous xs = none)
    (hy : Accounted pid (xs.getLast?.or previous) ys result) :
    Accounted pid previous (xs ++ ys) result := by
  cases hy with
  | read a faultless => exact .read a (by rwa [firstFailure?_append_of_none hx])
  | mismatched expected actual faultless =>
    exact .mismatched expected actual (by rwa [firstFailure?_append_of_none hx])
  | refused errno fails first =>
    exact .refused errno fails (by rwa [firstFailure?_append_of_none hx])

/-- A request that fails ends the chain, or the reading fails with it. -/
theorem accounted_extend_readError (pid : Pid) (index : Nat) (capacity : Option Nat)
    (earlier : List SeccompFilter) (errno : Errno) :
    Accounted pid previous [⟨.seccompFilter pid index capacity, .error errno⟩]
      (extend earlier (.error (readError pid index errno))) := by
  by_cases hends : errno = .enoent ∨ errno = .einval
  · rw [readError, if_pos hends]
    refine .read _ (firstFailure?_singleton_of_not_failure ?_)
    exact Call.isFailure_of_absorbed errno rfl (by simpa [Call.isAbsorbed] using hends)
  · have hextend : extend earlier (.error (.ofErrno pid errno)) = .error (.ofErrno pid errno) := by
      unfold Error.ofErrno
      split
      · rfl
      · split <;> rfl
    rw [readError, if_neg hends, hextend]
    refine .refused errno rfl (firstFailure?_singleton_of_failure ?_)
    simpa [Call.isFailure, Call.failure?, errorOf?, Call.isAbsorbed] using hends

/-- One filter, by both of its requests. -/
theorem Reads.accounted {pid : Pid} {index : Nat} {outcome : Except Error SeccompFilter}
    (h : Reads pid index calls outcome) (earlier : List SeccompFilter) :
    Accounted pid previous calls (extend earlier outcome) := by
  have hanswered (capacity : Option Nat) (answer : Answer) (previous : Option Call) :
      Call.isFailure true previous ⟨.seccompFilter pid index capacity, .ok answer⟩ = false :=
    Call.isFailure_of_succeeds rfl
  cases h with
  | uncounted errno => exact accounted_extend_readError pid index none earlier errno
  | uncopied counted errno =>
    exact .append (firstFailure?_singleton_of_not_failure (hanswered _ _ _))
      (accounted_extend_readError pid index _ earlier errno)
  | mismatched => exact .mismatched _ _ (firstFailure?_eq_none_of_forall (by simp [hanswered]))
  | whole => exact .read _ (firstFailure?_eq_none_of_forall (by simp [hanswered]))

/-- One step along the chain. -/
theorem accounted_readNext (pid : Pid) (limit : Option Nat) (previous : Option Call)
    (earlier : List SeccompFilter) (replies : List Reply) :
    Accounted pid previous (readNext pid limit earlier replies).calls
      (readNext pid limit earlier replies).result := by
  by_cases hlimit : limit = some earlier.length
  · rw [readNext_of_limit pid hlimit]
    exact .read _ rfl
  · rw [readNext_of_not_limit pid hlimit]
    exact (reads_read pid earlier.length replies).accounted earlier

/-- The whole chain, by induction on the steps. Each of them is looked at after every call that may
come before it, as the step before is not known. -/
theorem accounted_readAll (pid : Pid) (limit : Option Nat) (previous : Option Call)
    (replies : List Reply) :
    Accounted pid previous (readAll pid limit replies).calls
      (readAll pid limit replies).result := by
  refine Attempt.loop_induction
    (motive := fun _ _ x => ∀ previous, Accounted pid previous x.calls x.result)
    ?failed ?done ?next [] replies previous
  case failed =>
    intro earlier replies error hr previous
    have hstep := accounted_readNext pid limit previous earlier replies
    rw [hr] at hstep
    exact hstep.error
  case done =>
    intro earlier replies filters hr previous
    have hstep := accounted_readNext pid limit previous earlier replies
    rw [hr] at hstep
    exact .read filters hstep.surfaced.none_of_ok
  case next =>
    intro earlier replies filters hr ih previous
    have hstep := accounted_readNext pid limit previous earlier replies
    rw [hr] at hstep
    exact .append hstep.surfaced.none_of_ok (ih _)

theorem surfaces_readAll (pid : Pid) (limit : Option Nat) : (readAll pid limit).Surfaces true :=
  fun previous replies => (accounted_readAll pid limit previous replies).surfaced

end SeccompFilter

end ProcTrace
