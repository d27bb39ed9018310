import ProcTrace.Kernel.Attempt
import ProcTrace.Register.Field

/-!
# Machines

The machine that an executable is made for, which fixes the width of a tracee's registers. An
executable names its machine by two bytes of its header, in its own byte order.
-/

namespace ProcTrace

/-- A machine whose registers are known. -/
inductive Machine
  | i386 | amd64 | aarch64 | s390x
  deriving DecidableEq, Repr

namespace Machine

/-- The machine of two header bytes, if it is known. -/
def ofBytes? (first second : UInt8) : Option Machine :=
  if first = 0x03 ∧ second = 0x00 then some i386
  else if first = 0x3e ∧ second = 0x00 then some amd64
  else if first = 0xb7 ∧ second = 0x00 then some aarch64
  else if first = 0x00 ∧ second = 0x16 then some s390x
  else none

/-- The width of a register. -/
def registerWidth : Machine → Width
  | i386 => .bits32
  | amd64 | aarch64 | s390x => .bits64

/-- The place of the machine's bytes in the header of an executable. -/
def headerOffset : Nat := 18

/-- The machine of a file that was opened for `pid`. -/
def ofFile (pid : Pid) (opened : Answer) : Except Error Machine :=
  match opened.readFailure, opened.file.drop headerOffset with
  | some errno, _ => .error (.file (.errno errno))
  | none, first :: second :: _ =>
    match ofBytes? first second with
    | some machine => .ok machine
    | none => .error (.unsupportedMachine pid first second)
  | none, _ => .error (.file (.other "failed to fill whole buffer"))

/-- The machine of the opened executable of `pid`, unless it could not be opened. -/
def ofOpened (pid : Pid) : Except Errno Answer → Except Error Machine
  | .ok opened => ofFile pid opened
  | .error errno => .error (.file (.errno errno))

/-- An interrupted attempt to open a file is repeated. -/
def judgeOpen : Reply → Except Errno Answer ⊕ List Record
  | .ok opened => .inl (.ok opened)
  | .error errno => if errno = .eintr then .inr [] else .inl (.error errno)

/-- A file that is not there is not opened again. -/
theorem judgeOpen_lastErrno (pid : Pid) :
    judgeOpen (.error (Request.openExecutable pid).lastErrno) =
      .inl (.error (Request.openExecutable pid).lastErrno) := rfl

/-- The machine of the executable that the process runs. -/
def ofExecutable (pid : Pid) : Attempt Machine := fun replies =>
  let opened := Tracer.askUntil (.openExecutable pid) judgeOpen (judgeOpen_lastErrno pid) replies
  opened.withResult (ofOpened pid opened.result)

end Machine

end ProcTrace
