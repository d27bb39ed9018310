import ProcTrace.Pid
import ProcTrace.Signal

/-!
# Wait statuses

What a wait for a process reports. The kernel hands back a process number and a status word, and
`WaitStatus.decode?` reads the word. A word that names no standard signal has no reading, so
neither a stop nor an end by such a signal can be told.
-/

namespace ProcTrace

/-- How a tracee came to a stop. -/
inductive StopReport
  | signal (signal : Signal)
  /-- A stop at a trace event, with the event's code. -/
  | event (signal : Signal) (code : Int)
  | syscall
  deriving DecidableEq, Repr

/-- How a process ended. -/
inductive Ending
  | exited (code : Int)
  | killed (signal : Signal) (coreDumped : Bool)
  deriving DecidableEq, Repr

/-- A change that a tracer has to take notice of. -/
inductive Change
  | stopped (report : StopReport)
  | ended (ending : Ending)
  deriving DecidableEq, Repr

/-- What a wait reports. -/
inductive WaitStatus
  | changed (pid : Pid) (change : Change)
  | continued (pid : Pid)
  | stillAlive
  deriving DecidableEq, Repr

namespace WaitStatus

/-- The stop signal by which the kernel marks a syscall-stop. -/
def syscallMark : Nat := 0x85

/-- The reading of a stop with signal number `signal` and event code `code`. -/
def stopReport? (signal : Nat) (code : Int) : Option StopReport :=
  if signal = syscallMark then some .syscall
  else if code = 0 then (Signal.ofNumber? signal).map .signal
  else (Signal.ofNumber? signal).map (.event · code)

/-- The reading of a status word about the process `pid`. The lowest seven bits tell an exit (0)
and a stop (127) from an end by a signal. The byte above holds the exit code or the stop signal,
and what lies above that is the event code. -/
def decode? (pid : Pid) (word : Int32) : Option WaitStatus :=
  let low := word.toInt % 128
  let second := (word.toInt / 256 % 256).toNat
  if low = 0 then
    some (.changed pid (.ended (.exited second)))
  else if low ≠ 127 then
    (Signal.ofNumber? low.toNat).map fun signal =>
      .changed pid (.ended (.killed signal (word.toInt / 128 % 2 = 1)))
  else if word.toInt / 128 % 2 = 0 then
    (stopReport? second (word.toInt / 65536)).map fun report => .changed pid (.stopped report)
  else if word = 0xffff then
    some (.continued pid)
  else
    none

/-- The status as log lines write it. -/
def text : WaitStatus → String
  | changed pid (.ended (.exited code)) => s!"Exited(Pid({pid}), {code})"
  | changed pid (.ended (.killed signal coreDumped)) =>
    s!"Signaled(Pid({pid}), {signal}, {coreDumped})"
  | changed pid (.stopped (.signal signal)) => s!"Stopped(Pid({pid}), {signal})"
  | changed pid (.stopped (.event signal code)) => s!"PtraceEvent(Pid({pid}), {signal}, {code})"
  | changed pid (.stopped .syscall) => s!"PtraceSyscall(Pid({pid}))"
  | continued pid => s!"Continued(Pid({pid}))"
  | stillAlive => "StillAlive"

instance : ToString WaitStatus := ⟨text⟩

end WaitStatus

end ProcTrace
