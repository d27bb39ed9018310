import ProcTrace.Seccomp.Filter
import ProcTrace.WaitStatus
import ProcTrace.Errno

/-!
# Replies of the kernel

A request fails with an error number or is answered. An `Answer` holds all that the kernel can hand
back, and each request reads the part that it asks for: a status (`Reply.waitStatus`), an amount of
instructions (`Answer.instructionCount`, `Answer.instructionBuffer`), a prefix of the register image
(`Answer.imagePrefix`, `Answer.imageCount`) or a stretch of a file (`Answer.readFile`).
-/

namespace ProcTrace

/-- What the kernel hands back for a request that succeeds. -/
structure Answer where
  /-- The value returned, where it is not the usual one. A request that succeeds never returns -1,
  which stands for a failure. If it is given here, it is taken like any other value. -/
  returned : Option Int64 := none
  status : Int32 := 0
  data : UInt64 := 0
  image : List UInt8 := []
  /-- The number of bytes reported as copied, where it is not the true one. -/
  copied : Option Nat := none
  instructions : List Instruction := []
  file : List UInt8 := []
  /-- Reading the opened file fails with this error. -/
  readFailure : Option Errno := none
  deriving DecidableEq, Repr

/-- The kernel's reply to a request. -/
abbrev Reply := Except Errno Answer

variable {α : Type}

/-- The first `length` entries of a list, filled up with `blank` if there are fewer. -/
def fitted (blank : α) (length : Nat) (entries : List α) : List α :=
  entries.take length ++ List.replicate (length - entries.length) blank

@[simp] theorem length_fitted (blank : α) (length : Nat) (entries : List α) :
    (fitted blank length entries).length = length := by
  simp [fitted]
  omega

@[simp] theorem fitted_self (blank : α) (entries : List α) :
    fitted blank entries.length entries = entries := by
  simp [fitted]

/-- Every place holds the entry that belongs there, or is blank if there is none. -/
theorem getElem?_fitted (blank : α) (entries : List α) {length i : Nat} (h : i < length) :
    (fitted blank length entries)[i]? = some (entries[i]?.getD blank) := by
  by_cases hi : i < entries.length
  · have htaken : i < (entries.take length).length := by
      rw [List.length_take]
      omega
    rw [fitted, List.getElem?_append_left htaken, List.getElem?_take_of_lt h,
      List.getElem?_eq_getElem hi, Option.getD_some]
  · have htaken : (entries.take length).length ≤ i := by
      rw [List.length_take]
      omega
    have hfilled : i - (entries.take length).length < length - entries.length := by
      rw [List.length_take]
      omega
    rw [fitted, List.getElem?_append_right htaken, List.getElem?_replicate_of_lt hfilled,
      List.getElem?_eq_none (Nat.le_of_not_lt hi), Option.getD_none]

/-- What was there is not changed, as far as it reaches. -/
theorem take_fitted (blank : α) {length count : Nat} {entries : List α}
    (hlength : count ≤ length) (hentries : count ≤ entries.length) :
    (fitted blank length entries).take count = entries.take count := by
  have htaken : count ≤ (entries.take length).length := by
    rw [List.length_take]
    omega
  rw [fitted, List.take_append_of_le_length htaken, List.take_take, Nat.min_eq_left hlength]

namespace Answer

/-- The number of instructions that the kernel reports. An amount is never negative, so the value
returned is taken without a sign. -/
def instructionCount (answer : Answer) : Nat :=
  match answer.returned with
  | some value => value.toUInt64.toNat
  | none => answer.instructions.length

/-- What a zeroed buffer of `capacity` instructions holds afterwards. -/
def instructionBuffer (answer : Answer) (capacity : Nat) : List Instruction :=
  fitted .zero capacity answer.instructions

/-- The number of bytes of the register image that the kernel reports as copied into a buffer of
`length` bytes. -/
def imageCount (answer : Answer) (length : Nat) : Nat :=
  answer.copied.getD (min answer.image.length length)

/-- What a zeroed buffer of `length` bytes holds after the register image is copied to it. -/
def imagePrefix (answer : Answer) (length : Nat) : List UInt8 :=
  fitted 0 length answer.image

/-- The process number that a wait for `pid` returns. Process numbers are signed and have 32 bits,
and no more of the value returned is looked at. -/
def waited (answer : Answer) (pid : Pid) : Pid :=
  match answer.returned with
  | some value => ⟨value.toInt32.toInt⟩
  | none => pid

end Answer

/-- The status that a wait for `pid` reports. A wait that returns zero has nothing to report, and
one whose status word has no reading fails as invalid. -/
def Reply.waitStatus (pid : Pid) : Reply → Except Errno WaitStatus
  | .error errno => .error errno
  | .ok answer =>
    if (answer.waited pid).number = 0 then .ok .stillAlive
    else
      match WaitStatus.decode? (answer.waited pid) answer.status with
      | some status => .ok status
      | none => .error .einval

end ProcTrace
