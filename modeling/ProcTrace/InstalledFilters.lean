import ProcTrace.Session.Lifetime
import ProcTrace.Session.Requests

/-!
# Installed filters

`installedFilters` attaches to a process, reads its seccomp filters and detaches again, whether or
not they could be read. If both the reading and the detaching fail, the error of reading is
reported.
-/

namespace ProcTrace

/-- Reports the filters that were read, unless reading them or detaching has failed. -/
def reportFilters (pid : Pid) :
    Except Error (List SeccompFilter) → Except Error Unit → Attempt (List SeccompFilter)
  | .ok filters, .ok () => do
    Attempt.note (.filtersDumped pid filters.length)
    pure filters
  | .error error, _ => throw error
  | .ok _, .error error => throw error

/-- The seccomp filters of the process, at most `limit` of them. -/
def installedFilters (pid : Pid) (limit : Option Nat) : Attempt (List SeccompFilter) := do
  let session ← Session.attachStopped pid
  let filters ← (session.filters limit).outcome
  let detached ← session.detach.outcome
  reportFilters pid filters detached

end ProcTrace
