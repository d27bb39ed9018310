import ProcTrace.WaitStatus

/-!
# Stops, events and states

What a tracee last reported, as its tracer understands it, and how far the tracing of it has come.
Only an end is terminal: after every other stop the tracee can be restarted.
-/

namespace ProcTrace

/-- The kinds of trace event. -/
inductive Event
  | fork | vfork | clone | exec | vforkDone | exit | seccomp | stop
  deriving DecidableEq, Repr

namespace Event

/-- The event of a code, none for a code that stands for no event. -/
def ofCode? : Int → Option Event
  | 1 => fork | 2 => vfork | 3 => clone | 4 => exec | 5 => vforkDone | 6 => exit | 7 => seccomp
  | 128 => stop
  | _ => none

/-- Events that a tracee reports in the middle of a syscall. -/
def midSyscall : Event → Bool
  | exec | seccomp => true
  | _ => false

/-- The name of the event. -/
def name : Event → String
  | fork => "Fork" | vfork => "Vfork" | clone => "Clone" | exec => "Exec"
  | vforkDone => "VforkDone" | exit => "Exit" | seccomp => "Seccomp" | stop => "Stop"

instance : ToString Event := ⟨name⟩

end Event

/-- What a tracee reported when it last changed its state. -/
inductive Stop
  /-- The first stop, which follows an attach. -/
  | attach
  /-- A signal is about to be delivered. -/
  | signalDelivery (signal : Signal)
  /-- All threads are stopped by a signal. -/
  | group (signal : Signal)
  | syscallEnter
  | syscallExit
  | event (event : Event)
  | ended (ending : Ending)
  deriving DecidableEq, Repr

namespace Stop

/-- The tracee has ended. -/
def isTerminal : Stop → Bool
  | ended _ => true
  | _ => false

/-- A stop at a trace event. -/
def isEvent : Stop → Bool
  | event _ => true
  | _ => false

/-- The stop as log lines write it. -/
def text : Stop → String
  | attach => "Attach"
  | signalDelivery signal => s!"SignalDelivery \x7b signal: {signal} \x7d"
  | group signal => s!"Group \x7b signal: {signal} \x7d"
  | syscallEnter => "SyscallEnter"
  | syscallExit => "SyscallExit"
  | event kind => s!"Event \x7b event: {kind} \x7d"
  | ended (.exited code) => s!"Exited \x7b exit_code: {code} \x7d"
  | ended (.killed signal coreDumped) =>
    s!"Signaled \x7b signal: {signal}, core_dumped: {coreDumped} \x7d"

instance : ToString Stop := ⟨text⟩

end Stop

/-- How far the tracing of a process has come. -/
inductive State
  /-- Not traced, or not traced any more. -/
  | detached
  /-- The attach-stop has not been waited for. -/
  | attaching
  /-- Stopped, and ready for requests. -/
  | stopped
  /-- Restarted, and to be waited for. -/
  | continuing
  /-- Ended while traced. -/
  | exited
  deriving DecidableEq, Repr

namespace State

/-- The name of the state. -/
def name : State → String
  | detached => "Detached" | attaching => "Attaching" | stopped => "Stopped"
  | continuing => "Continuing" | exited => "Exited"

instance : ToString State := ⟨name⟩

end State

end ProcTrace
