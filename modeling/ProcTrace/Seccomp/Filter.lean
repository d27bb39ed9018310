import ProcTrace.Bytes

/-!
# Seccomp filters

A filter that a process has installed: a program of packet-filter instructions, and its place in
the process's chain of filters, counted from the first one installed. `SeccompFilter.toBytes` writes
eight bytes for every instruction (`SeccompFilter.length_toBytes`).
-/

namespace ProcTrace

/-- A packet-filter instruction: an operation code, two jump distances and an operand. -/
structure Instruction where
  code : UInt16
  jumpTrue : UInt8
  jumpFalse : UInt8
  operand : UInt32
  deriving DecidableEq, Repr

namespace Instruction

/-- The number of bytes of an instruction. -/
def size : Nat := 8

/-- The instruction of an empty buffer. -/
def zero : Instruction := ⟨0, 0, 0, 0⟩

/-- The bytes of the instruction, every field little-endian. -/
def toBytes (i : Instruction) : List UInt8 :=
  littleEndian 2 i.code.toNat ++ [i.jumpTrue, i.jumpFalse] ++ littleEndian 4 i.operand.toNat

@[simp] theorem length_toBytes (i : Instruction) : i.toBytes.length = size := by
  simp [toBytes, size]

end Instruction

/-- A filter of a process, with its place in the chain. -/
structure SeccompFilter where
  index : Nat
  instructions : List Instruction
  deriving DecidableEq, Repr

namespace SeccompFilter

/-- The number of instructions. -/
def length (f : SeccompFilter) : Nat :=
  f.instructions.length

/-- The filter has no instructions. -/
def isEmpty (f : SeccompFilter) : Bool :=
  f.instructions.isEmpty

/-- The bytes of the instructions, one after the other. -/
def toBytes (f : SeccompFilter) : List UInt8 :=
  f.instructions.flatMap Instruction.toBytes

theorem length_toBytes (f : SeccompFilter) : f.toBytes.length = Instruction.size * f.length := by
  obtain ⟨_, instructions⟩ := f
  simp only [toBytes, length]
  induction instructions with
  | nil => rfl
  | cons i rest ih =>
    rw [List.flatMap_cons, List.length_append, i.length_toBytes, ih, List.length_cons,
      Nat.mul_succ, Nat.add_comm]

end SeccompFilter

end ProcTrace
