import ProcTrace.Kernel.Attempt

/-!
# Sessions

A session is the account that a tracer keeps of one tracee: how far the tracing has come, which
options are set, what was reported last, and whether the tracee is inside a syscall. Most
operations are allowed only while the tracee is stopped, and are refused otherwise
(`Session.whenStopped`) before any request is made. An operation that changes the session gives the
new one beside its result, and `Session.advance` leaves it as it was when a request fails.
-/

namespace ProcTrace

/-- The tracing of one process. -/
structure Session where
  pid : Pid
  state : State
  /-- The options that were set last. -/
  options : Option TraceOptions
  /-- The stop that was reported last, while the tracee is still there. -/
  lastStop : Option Stop
  /-- The tracee has entered a syscall and not left it. -/
  inSyscall : Bool
  deriving DecidableEq, Repr

namespace Session

/-- The session of a process that has not yet reported its attach-stop. -/
def attaching (pid : Pid) : Session :=
  ⟨pid, .attaching, none, none, false⟩

/-- The signal that the tracee would get if it were not traced. -/
def pendingSignal (s : Session) : Option Signal :=
  match s.lastStop with
  | some (.signalDelivery signal) => some signal
  | _ => none

/-- The refusal of an operation in the present state. -/
def refusal (s : Session) (operation : String) : Error :=
  .misuse s.pid s.state operation

/-- Allows an operation only while the tracee is stopped. -/
def whenStopped {α : Type} (s : Session) (operation : String) (x : Attempt α) : Attempt α :=
  if s.state = .stopped then x else throw (s.refusal operation)

theorem whenStopped_of_stopped {α : Type} {s : Session} (h : s.state = .stopped)
    (operation : String) (x : Attempt α) : s.whenStopped operation x = x :=
  if_pos h

theorem whenStopped_of_not_stopped {α : Type} {s : Session} (h : s.state ≠ .stopped)
    (operation : String) (x : Attempt α) :
    s.whenStopped operation x = throw (s.refusal operation) :=
  if_neg h

/-- The session is `next` once `x` has succeeded, and as before if it fails. -/
def advance {α : Type} (s : Session) (x : Attempt α) (next : Session) :
    Tracer (Except Error α × Session) := do
  match ← x.run with
  | .ok a => pure (.ok a, next)
  | .error error => pure (.error error, s)

end Session

end ProcTrace
