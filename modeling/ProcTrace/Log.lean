import ProcTrace.Error
import ProcTrace.TraceOptions

/-!
# Log records

What is noted while a process is traced. Each record has a level and a line of text: the level, a
message, and the values that belong to it. Warnings are about dropped sessions only.
-/

namespace ProcTrace

/-- How important a record is, the most important first. -/
inductive Level
  | warn | info | debug | trace
  deriving DecidableEq, Repr

namespace Level

/-- The name of the level. -/
def name : Level → String
  | warn => "WARN" | info => "INFO" | debug => "DEBUG" | trace => "TRACE"

/-- The place of the level, the most important first. -/
def rank : Level → Nat
  | warn => 0 | info => 1 | debug => 2 | trace => 3

/-- A log kept at `level` has the records of level `other`. -/
def admits (level other : Level) : Bool :=
  other.rank ≤ level.rank

end Level

/-- A note about something that happened. -/
inductive Record
  | attaching (pid : Pid)
  | detaching (pid : Pid)
  | settingOptions (pid : Pid) (options : TraceOptions)
  | reapplyingOptions (pid : Pid) (options : TraceOptions)
  | restarting (pid : Pid) (signal : Option Signal)
  | endedBeforeStopping (status : WaitStatus)
  | ignoredStatus (status : WaitStatus)
  | signalBeforeAttachStop (pid : Pid) (signal : Signal)
  | stopBeforeAttachStop (pid : Pid) (status : WaitStatus)
  | registersCopied (pid : Pid) (requested copied : Nat)
  | registerReadFailed (pid : Pid) (offset : UInt64) (bits : UInt32) (error : Error)
  | filterLength (pid : Pid) (index count : Nat)
  | filterRead (pid : Pid) (index length : Nat)
  | sessionOpened (pid : Pid) (state : State)
  | attachStopReached (pid : Pid)
  | stateChanged (pid : Pid) (stop : Stop) (state : State)
  | detachFailed (pid : Pid) (error : Error)
  | droppedRunning (pid : Pid)
  | filtersDumped (pid : Pid) (count : Nat)
  deriving DecidableEq, Repr

namespace Record

/-- The level of the record. -/
def level : Record → Level
  | detachFailed .. | droppedRunning .. => .warn
  | attaching .. | detaching .. | filtersDumped .. => .info
  | registersCopied .. | filterLength .. => .trace
  | _ => .debug

/-- An optional signal as log lines write it. -/
def signalText : Option Signal → String
  | some signal => s!"Some({signal})"
  | none => "None"

/-- The message of the record and the values that belong to it. -/
def text : Record → String
  | attaching pid => s!"attaching pid={pid}"
  | detaching pid => s!"detaching pid={pid}"
  | settingOptions pid options => s!"setting options pid={pid} options={options}"
  | reapplyingOptions pid options =>
    s!"re-applying unchanged options pid={pid} options={options}"
  | restarting pid signal =>
    s!"continuing to next syscall pid={pid} signal=" ++ signalText signal
  | endedBeforeStopping status => s!"target terminated before stopping status={status}"
  | ignoredStatus status => s!"ignoring non-stop wait status status={status}"
  | signalBeforeAttachStop pid signal => s!"signal before attach-stop pid={pid} signal={signal}"
  | stopBeforeAttachStop pid status => s!"stop before attach-stop pid={pid} status={status}"
  | registersCopied pid requested copied =>
    s!"read register image prefix pid={pid} requested={requested} copied={copied}"
  | registerReadFailed pid offset bits error =>
    s!"register read failed pid={pid} offset={offset} width_bits={bits} err={error}"
  | filterLength pid index count =>
    s!"queried seccomp filter length pid={pid} index={index} count={count}"
  | filterRead pid index length => s!"read seccomp filter pid={pid} index={index} len={length}"
  | sessionOpened pid state => s!"new trace session pid={pid} state={state}"
  | attachStopReached pid => s!"tracee reached attach-stop pid={pid}"
  | stateChanged pid stop state => s!"tracee changed state pid={pid} stop={stop} state={state}"
  | detachFailed pid error => s!"failed to detach dropped session pid={pid} err={error}"
  | droppedRunning pid => s!"dropped running session; tracee remains traced pid={pid}"
  | filtersDumped pid count => s!"dumped seccomp filters pid={pid} count={count}"

/-- The line that is logged. -/
def line (record : Record) : String :=
  record.level.name ++ " " ++ record.text

end Record

end ProcTrace
