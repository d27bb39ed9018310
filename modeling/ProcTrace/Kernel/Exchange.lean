import ProcTrace.Kernel.Reply
import ProcTrace.Kernel.Request
import ProcTrace.Log

/-!
# Exchanges with the kernel

What came of talking to a kernel whose replies are given as a list: a result, the calls that were
made, each with the reply it got, what was logged, and the replies that are left. Exchanges are put
together one after the other (`Exchange.followedBy`).
-/

namespace ProcTrace

variable {α β : Type}

/-- A request and the reply it got. -/
structure Call where
  request : Request
  reply : Reply
  deriving Repr

/-- What came of talking to the kernel. -/
structure Exchange (α : Type) where
  result : α
  /-- The calls made, in order. -/
  calls : List Call
  /-- What was logged, in order. -/
  log : List Record
  /-- The replies that no call has taken. -/
  rest : List Reply

namespace Exchange

/-- The same exchange with another result. -/
def withResult (x : Exchange α) (result : β) : Exchange β :=
  ⟨result, x.calls, x.log, x.rest⟩

/-- One exchange after the other. -/
def followedBy (x : Exchange α) (y : Exchange β) : Exchange β :=
  ⟨y.result, x.calls ++ y.calls, x.log ++ y.log, y.rest⟩

@[simp] theorem result_withResult (x : Exchange α) (b : β) : (x.withResult b).result = b := rfl
@[simp] theorem calls_withResult (x : Exchange α) (b : β) : (x.withResult b).calls = x.calls := rfl
@[simp] theorem log_withResult (x : Exchange α) (b : β) : (x.withResult b).log = x.log := rfl
@[simp] theorem rest_withResult (x : Exchange α) (b : β) : (x.withResult b).rest = x.rest := rfl

@[simp] theorem result_followedBy (x : Exchange α) (y : Exchange β) :
    (x.followedBy y).result = y.result := rfl
@[simp] theorem calls_followedBy (x : Exchange α) (y : Exchange β) :
    (x.followedBy y).calls = x.calls ++ y.calls := rfl
@[simp] theorem log_followedBy (x : Exchange α) (y : Exchange β) :
    (x.followedBy y).log = x.log ++ y.log := rfl
@[simp] theorem rest_followedBy (x : Exchange α) (y : Exchange β) :
    (x.followedBy y).rest = y.rest := rfl

end Exchange

end ProcTrace
