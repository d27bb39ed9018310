/-!
# Process numbers

A `Pid` names the process that a request is about.
-/

namespace ProcTrace

/-- The number of a process. -/
structure Pid where
  number : Int
  deriving DecidableEq, Repr

instance : ToString Pid := ⟨fun pid => toString pid.number⟩

end ProcTrace
