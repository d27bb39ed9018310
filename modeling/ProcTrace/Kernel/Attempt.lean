import ProcTrace.Kernel.Tracer

/-!
# Attempts

An `Attempt` is a tracer that can fail. After a failure nothing more is asked (`bind_of_error`), and
after a success the rest goes on with the replies that are left (`bind_of_ok`).

`Attempt.loop` repeats a step. A step that asks to go on has used up a reply, so a loop ends on
every list of replies. The lemmas `loop_of_error`, `loop_of_done` and `loop_of_next` say what each
step leads to.
-/

namespace ProcTrace

variable {α β σ : Type}

/-- A tracer that can fail. -/
abbrev Attempt := ExceptT Error Tracer

namespace Attempt

theorem pure_apply (a : α) (replies : List Reply) :
    (pure a : Attempt α) replies = ⟨.ok a, [], [], replies⟩ := rfl

theorem throw_apply (error : Error) (replies : List Reply) :
    (throw error : Attempt α) replies = ⟨.error error, [], [], replies⟩ := rfl

/-- After a success the rest goes on with the replies that are left. -/
theorem bind_of_ok {x : Attempt α} {f : α → Attempt β} {replies : List Reply} {a : α}
    (h : (x replies).result = .ok a) :
    (x >>= f) replies = (x replies).followedBy (f a (x replies).rest) := by
  show (x replies).followedBy (ExceptT.bindCont f (x replies).result (x replies).rest) = _
  rw [h]
  rfl

/-- After a failure nothing more is asked. -/
theorem bind_of_error {x : Attempt α} {f : α → Attempt β} {replies : List Reply} {error : Error}
    (h : (x replies).result = .error error) :
    (x >>= f) replies = (x replies).withResult (.error error) := by
  show (x replies).followedBy (ExceptT.bindCont f (x replies).result (x replies).rest) = _
  rw [h]
  simp [ExceptT.bindCont, Exchange.followedBy, Exchange.withResult, Tracer.pure_apply]

/-- Makes a request that has to succeed. A failure is the error that `cause` names. -/
def askOr (cause : Errno → Error) (request : Request) : Attempt Answer :=
  fun replies =>
    let asked := Tracer.ask request replies
    asked.withResult (asked.result.mapError cause)

/-- Makes a request about `pid` that has to succeed. -/
def ask (pid : Pid) (request : Request) : Attempt Answer :=
  askOr (Error.ofErrno pid) request

/-- Makes a request whose answer holds nothing of interest. -/
def commandOr (cause : Errno → Error) (request : Request) : Attempt Unit :=
  fun replies =>
    let asked := askOr cause request replies
    asked.withResult (asked.result.map fun _ => ())

/-- Makes a request about `pid` whose answer holds nothing of interest. -/
def command (pid : Pid) (request : Request) : Attempt Unit :=
  commandOr (Error.ofErrno pid) request

/-- Logs a record. -/
def note (record : Record) : Attempt Unit :=
  fun replies => ⟨.ok (), [], [record], replies⟩

/-- What becomes of `x`, as a value. This never fails. -/
def outcome (x : Attempt α) : Attempt (Except Error α) :=
  fun replies => (x replies).withResult (.ok (x replies).result)

/-- Repeats a step from state to state until it gives a result. A step that goes on to another
state has used up a reply, which is why the loop ends. -/
def loop (step : σ → Attempt (α ⊕ σ))
    (progress : ∀ state replies next, (step state replies).result = .ok (.inr next) →
      (step state replies).rest.length < replies.length)
    (state : σ) (replies : List Reply) : Exchange (Except Error α) :=
  let taken := step state replies
  match _h : taken.result with
  | .error error => taken.withResult (.error error)
  | .ok (.inl a) => taken.withResult (.ok a)
  | .ok (.inr next) => taken.followedBy (loop step progress next taken.rest)
termination_by replies.length
decreasing_by exact progress state replies next _h

theorem loop_of_error {step : σ → Attempt (α ⊕ σ)}
    {progress : ∀ state replies next, (step state replies).result = .ok (.inr next) →
      (step state replies).rest.length < replies.length}
    {state : σ} {replies : List Reply} {error : Error}
    (h : (step state replies).result = .error error) :
    loop step progress state replies = (step state replies).withResult (.error error) := by
  rw [loop]
  split <;> simp_all

theorem loop_of_done {step : σ → Attempt (α ⊕ σ)}
    {progress : ∀ state replies next, (step state replies).result = .ok (.inr next) →
      (step state replies).rest.length < replies.length}
    {state : σ} {replies : List Reply} {a : α}
    (h : (step state replies).result = .ok (.inl a)) :
    loop step progress state replies = (step state replies).withResult (.ok a) := by
  rw [loop]
  split <;> simp_all

theorem loop_of_next {step : σ → Attempt (α ⊕ σ)}
    {progress : ∀ state replies next, (step state replies).result = .ok (.inr next) →
      (step state replies).rest.length < replies.length}
    {state : σ} {replies : List Reply} {next : σ}
    (h : (step state replies).result = .ok (.inr next)) :
    loop step progress state replies =
      (step state replies).followedBy (loop step progress next (step state replies).rest) := by
  rw [loop]
  split <;> simp_all

/-! ### Replies are taken from the front -/

/-- The replies that `x` leaves are the last ones of those it was given. -/
abbrev Orderly (x : Attempt α) : Prop :=
  Tracer.Orderly x.run

theorem orderly_pure (a : α) : Orderly (pure a : Attempt α) := fun replies =>
  List.suffix_refl replies

theorem orderly_throw (error : Error) : Orderly (throw error : Attempt α) :=
  fun replies => List.suffix_refl replies

theorem orderly_note (record : Record) : Orderly (note record) := fun replies =>
  List.suffix_refl replies

theorem orderly_askOr (cause : Errno → Error) (request : Request) :
    Orderly (askOr cause request) := fun replies =>
  Tracer.orderly_ask request replies

theorem orderly_ask (pid : Pid) (request : Request) : Orderly (ask pid request) := fun replies =>
  Tracer.orderly_ask request replies

theorem orderly_command (pid : Pid) (request : Request) : Orderly (command pid request) :=
  fun replies => Tracer.orderly_ask request replies

theorem Orderly.bind {x : Attempt α} {f : α → Attempt β} (hx : Orderly x)
    (hf : ∀ a, Orderly (f a)) : Orderly (x >>= f) := fun replies => by
  show ((x >>= f) replies).rest <:+ replies
  cases h : (x replies).result with
  | ok a =>
    rw [bind_of_ok h]
    exact (hf a _).trans (hx replies)
  | error error =>
    rw [bind_of_error h]
    exact hx replies

theorem length_rest_askOr_lt {cause : Errno → Error} {request : Request} {replies : List Reply}
    {answer : Answer} (h : (askOr cause request replies).result = .ok answer) :
    (askOr cause request replies).rest.length < replies.length := by
  cases replies with
  | nil =>
    have herror : Except.error (cause request.lastErrno) = Except.ok answer := h
    cases herror
  | cons reply rest => simp [askOr, Tracer.ask]

/-- An attempt that succeeds runs through its first part. -/
theorem exists_of_bind_eq_ok {x : Attempt α} {f : α → Attempt β} {replies : List Reply} {b : β}
    (h : ((x >>= f) replies).result = .ok b) :
    ∃ a, (x replies).result = .ok a ∧
      (x >>= f) replies = (x replies).followedBy (f a (x replies).rest) := by
  cases hx : (x replies).result with
  | ok a => exact ⟨a, rfl, bind_of_ok hx⟩
  | error error =>
    rw [bind_of_error hx] at h
    simp at h

/-- An attempt that succeeds has taken a reply if its first part has taken one. -/
theorem length_rest_bind_lt {x : Attempt α} {f : α → Attempt β} (hf : ∀ a, Orderly (f a))
    {replies : List Reply} {b : β} (h : ((x >>= f) replies).result = .ok b)
    (hx : ∀ a, (x replies).result = .ok a → (x replies).rest.length < replies.length) :
    ((x >>= f) replies).rest.length < replies.length := by
  obtain ⟨a, ha, hbind⟩ := exists_of_bind_eq_ok h
  rw [hbind]
  exact Nat.lt_of_le_of_lt (hf a _).length_le (hx a ha)

end Attempt

end ProcTrace
