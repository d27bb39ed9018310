import ProcTrace.Machine
import ProcTrace.Register.Read
import ProcTrace.Seccomp.Read
import ProcTrace.Session.Basic
import ProcTrace.Tracee.Requests

/-!
# What a session asks for

Restarting the stopped tracee, setting its options, and reading from it. Only a restart and a
change of options change the session, and only if they succeed.
-/

namespace ProcTrace.Session

/-- Lets the tracee run to its next syscall-stop, delivering a signal if one is given. -/
def resume (s : Session) (signal : Option Signal) : Tracer (Except Error Unit × Session) :=
  s.advance (s.whenStopped "continue" (Tracee.resume s.pid signal))
    { s with state := .continuing, lastStop := none }

/-- Sets what the tracee reports. -/
def setOptions (s : Session) (options : TraceOptions) : Tracer (Except Error Unit × Session) :=
  s.advance (s.whenStopped "set options of" (apply s options)) { s with options := some options }
where
  /-- Sets the options, with a note if they were set before. -/
  apply (s : Session) (options : TraceOptions) : Attempt Unit :=
    if s.options = some options then do
      Attempt.note (.reapplyingOptions s.pid options)
      Tracee.setOptions s.pid options
    else Tracee.setOptions s.pid options

/-- The message of the event that the tracee is stopped at. -/
def eventMessage (s : Session) : Attempt UInt64 :=
  s.whenStopped "read event message of" <|
    if s.lastStop.any Stop.isEvent then Tracee.eventMessage s.pid
    else throw (s.refusal "read event message outside ptrace-event-stop of")

/-- The value of a field of the register image. -/
def readRegister (s : Session) (field : RegisterField) : Attempt UInt64 :=
  s.whenStopped "read registers of" (field.read s.pid)

/-- The seccomp filter at `index`. -/
def filterAt (s : Session) (index : Nat) : Attempt SeccompFilter :=
  s.whenStopped "read seccomp filter of" (SeccompFilter.read s.pid index)

/-- The seccomp filters, at most `limit` of them. -/
def filters (s : Session) (limit : Option Nat) : Attempt (List SeccompFilter) :=
  s.whenStopped "read seccomp filters of" (SeccompFilter.readAll s.pid limit)

/-- The word at an address of the tracee's memory. -/
def peek (s : Session) (address : UInt64) : Attempt UInt64 :=
  s.whenStopped "read memory of" (Tracee.peek s.pid address)

/-- The machine of the tracee's executable, in any state. -/
def machine (s : Session) : Attempt Machine :=
  Machine.ofExecutable s.pid

end ProcTrace.Session
