import ProcTrace.Session.Requests
import ProcTrace.Session.Wait

/-!
# Operations on a session

Everything that can be asked of a session while it lasts, as data, so that a run is a list of
operations. `Operation.perform` carries one out and gives the session as it is afterwards.
-/

namespace ProcTrace

/-- Something to ask of a session. -/
inductive Operation
  | wait
  | resume (signal : Option Signal)
  | setOptions (options : TraceOptions)
  | eventMessage
  | readRegister (field : RegisterField)
  | filterAt (index : Nat)
  | filters (limit : Option Nat)
  | peek (address : UInt64)
  | machine
  deriving DecidableEq

/-- What an operation gives if it succeeds. -/
inductive Outcome
  | done
  | stop (stop : Stop)
  | word (value : UInt64)
  | filter (filter : SeccompFilter)
  | filters (filters : List SeccompFilter)
  | machine (machine : Machine)
  deriving DecidableEq, Repr

namespace Operation

variable {α : Type}

/-- An operation that leaves the session as it is. -/
def reading (s : Session) (wrap : α → Outcome) (x : Attempt α) :
    Tracer (Except Error Outcome × Session) := do
  pure ((← x.run).map wrap, s)

/-- An operation that can change the session. -/
def changing (wrap : α → Outcome) (x : Tracer (Except Error α × Session)) :
    Tracer (Except Error Outcome × Session) := do
  let (result, s) ← x
  pure (result.map wrap, s)

/-- Carries out the operation. -/
def perform (s : Session) : Operation → Tracer (Except Error Outcome × Session)
  | wait => changing .stop s.wait
  | resume signal => changing (fun _ => .done) (s.resume signal)
  | setOptions options => changing (fun _ => .done) (s.setOptions options)
  | eventMessage => reading s .word s.eventMessage
  | readRegister field => reading s .word (s.readRegister field)
  | filterAt index => reading s .filter (s.filterAt index)
  | filters limit => reading s .filters (s.filters limit)
  | peek address => reading s .word (s.peek address)
  | machine => reading s .machine s.machine

end Operation

end ProcTrace
