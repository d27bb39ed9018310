import ProcTrace.Kernel.Exchange

/-!
# Talking to the kernel

A `Tracer` talks to a kernel whose replies are given as a list. Each request takes the first reply
left, and when none is left it fails with `Request.lastErrno`. `askUntil` makes one request again
and again until a reply is accepted. Once no reply is left it gets the same failure every time, so
it may only be used where that failure is accepted.

All tracers take their replies from the front (`Tracer.Orderly`).
-/

namespace ProcTrace

variable {α β : Type}

/-- A computation that talks to the kernel. -/
def Tracer (α : Type) := List Reply → Exchange α

namespace Tracer

instance : Monad Tracer where
  pure a := fun replies => ⟨a, [], [], replies⟩
  bind x f := fun replies => (x replies).followedBy (f (x replies).result (x replies).rest)

theorem pure_apply (a : α) (replies : List Reply) :
    (pure a : Tracer α) replies = ⟨a, [], [], replies⟩ := rfl

theorem bind_apply (x : Tracer α) (f : α → Tracer β) (replies : List Reply) :
    (x >>= f) replies = (x replies).followedBy (f (x replies).result (x replies).rest) := rfl

/-- A value made from the result of a tracer costs nothing : no call, no record, no reply. -/
theorem map_apply (f : α → β) (x : Tracer α) (replies : List Reply) :
    (f <$> x) replies = (x replies).withResult (f (x replies).result) := by
  show (x replies).followedBy ((pure (f (x replies).result) : Tracer β) (x replies).rest) = _
  simp [pure_apply, Exchange.followedBy, Exchange.withResult]

instance : LawfulMonad Tracer := by
  refine LawfulMonad.mk' Tracer ?_ ?_ ?_
  · intro α x
    funext replies
    rw [map_apply]
    rfl
  · intro α β a f
    funext replies
    simp [bind_apply, pure_apply, Exchange.followedBy]
  · intro α β γ x f g
    funext replies
    simp [bind_apply, Exchange.followedBy]

/-- Makes a request. -/
def ask (request : Request) : Tracer Reply
  | [] => ⟨.error request.lastErrno, [⟨request, .error request.lastErrno⟩], [], []⟩
  | reply :: rest => ⟨reply, [⟨request, reply⟩], [], rest⟩

/-- Logs a record. -/
def note (record : Record) : Tracer Unit :=
  fun replies => ⟨(), [], [record], replies⟩

/-- Makes a request again and again until `judge` accepts a reply, logging what it says about the
others. When no reply is left the request fails, and `judge` accepts that as a failure, which is why
the loop ends. -/
def askUntil (request : Request) (judge : Reply → Except Errno α ⊕ List Record)
    (accepts : judge (.error request.lastErrno) = .inl (.error request.lastErrno)) :
    Tracer (Except Errno α)
  | [] =>
    let accepted := (judge (.error request.lastErrno)).getLeft (by rw [accepts]; rfl)
    ⟨accepted, [⟨request, .error request.lastErrno⟩], [], []⟩
  | reply :: rest =>
    match judge reply with
    | .inl accepted => ⟨accepted, [⟨request, reply⟩], [], rest⟩
    | .inr records =>
      (⟨(), [⟨request, reply⟩], records, rest⟩ : Exchange Unit).followedBy
        (askUntil request judge accepts rest)

section

variable {request : Request} {judge : Reply → Except Errno α ⊕ List Record}
  {accepts : judge (.error request.lastErrno) = .inl (.error request.lastErrno)}

/-- On an empty script the request is made once, and its failure is the result. -/
theorem askUntil_nil : askUntil request judge accepts [] =
    ⟨.error request.lastErrno, [⟨request, .error request.lastErrno⟩], [], []⟩ := by
  simp [askUntil, accepts]

/-- The first reply that is accepted ends the loop. -/
theorem askUntil_of_accepted {reply : Reply} {accepted : Except Errno α}
    (h : judge reply = .inl accepted) (rest : List Reply) :
    askUntil request judge accepts (reply :: rest) = ⟨accepted, [⟨request, reply⟩], [], rest⟩ := by
  simp [askUntil, h]

/-- A reply that is not accepted is logged, and the request is made again. -/
theorem askUntil_of_passed {reply : Reply} {records : List Record}
    (h : judge reply = .inr records) (rest : List Reply) :
    askUntil request judge accepts (reply :: rest) =
      (⟨(), [⟨request, reply⟩], records, rest⟩ : Exchange Unit).followedBy
        (askUntil request judge accepts rest) := by
  simp [askUntil, h]

end

/-! ### Replies are taken from the front -/

/-- The replies that `x` leaves are the last ones of those it was given. -/
def Orderly (x : Tracer α) : Prop :=
  ∀ replies, (x replies).rest <:+ replies

theorem orderly_pure (a : α) : Orderly (pure a : Tracer α) := fun replies =>
  List.suffix_refl replies

theorem orderly_note (record : Record) : Orderly (note record) := fun replies =>
  List.suffix_refl replies

theorem orderly_ask (request : Request) : Orderly (ask request)
  | [] => List.suffix_refl _
  | reply :: rest => List.suffix_cons reply rest

theorem Orderly.bind {x : Tracer α} {f : α → Tracer β} (hx : Orderly x)
    (hf : ∀ a, Orderly (f a)) : Orderly (x >>= f) := fun replies =>
  (hf _ _).trans (hx replies)

/-- By induction on the script, as each round takes the first reply left. -/
theorem orderly_askUntil (request : Request) (judge : Reply → Except Errno α ⊕ List Record)
    (accepts : judge (.error request.lastErrno) = .inl (.error request.lastErrno)) :
    Orderly (askUntil request judge accepts) := fun replies => by
  induction replies with
  | nil => exact List.suffix_refl _
  | cons reply rest ih =>
    unfold askUntil
    split
    · exact List.suffix_cons reply rest
    · exact ih.trans (List.suffix_cons reply rest)

/-- A reply was left if one was accepted that tells of a success. -/
theorem length_rest_askUntil_lt {request : Request}
    {judge : Reply → Except Errno α ⊕ List Record}
    {accepts : judge (.error request.lastErrno) = .inl (.error request.lastErrno)}
    {replies : List Reply} {a : α} (h : (askUntil request judge accepts replies).result = .ok a) :
    (askUntil request judge accepts replies).rest.length < replies.length := by
  cases replies with
  | nil => simp [askUntil_nil] at h
  | cons reply rest =>
    have hle := (orderly_askUntil request judge accepts rest).length_le
    unfold askUntil
    split <;> simp
    omega

end Tracer

end ProcTrace
