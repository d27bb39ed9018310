import ProcTrace.Kernel.Attempt
import ProcTrace.Register.Field

/-!
# Reading registers

A field is read by copying the register image up to the end of the field, in one request.
`RegisterField.read` tells every failure apart. `registerValue` takes the place and width of the
field as numbers, and gives `failedRegisterValue` for a failure of any kind.
-/

namespace ProcTrace

/-- The value that stands for a failed read. -/
def failedRegisterValue : Int64 := -1

/-- Reads the field from the registers of the stopped tracee `pid`. A field of 32 bits is read as a
non-negative number. -/
def RegisterField.read (pid : Pid) (f : RegisterField) : Attempt UInt64 := do
  let length := f.coverLength.toNat
  let answer ← Attempt.ask pid (.registerSet pid length)
  let copied := answer.imageCount length
  Attempt.note (.registersCopied pid length copied)
  if copied < f.stop.toNat then
    throw (.transferMismatch pid "register image bytes" f.stop.toNat copied)
  else
    match f.valueIn (answer.imagePrefix length) with
    | .ok value => pure value
    | .error reason => throw (.internal reason)

/-- Reads the field of `bits` bits at `offset`. No request is made for a field that does not
exist. -/
def registerValue (pid : Pid) (offset : UInt64) (bits : UInt32) : Tracer Int64 := do
  let field : Attempt RegisterField := liftM (RegisterField.ofBits offset bits)
  match ← (field >>= RegisterField.read pid).run with
  | .ok value => pure value.toInt64
  | .error error =>
    Tracer.note (.registerReadFailed pid offset bits error)
    pure failedRegisterValue

end ProcTrace
