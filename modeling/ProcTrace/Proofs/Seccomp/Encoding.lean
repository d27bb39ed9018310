import ProcTrace.Seccomp.Filter

/-!
# Programs as bytes

A program is written as one record of eight bytes for each instruction. Records in a row are told
apart by their length alone : `take_drop_flatMap_toBytes` finds the record of an instruction at its
place, and `Instruction.listOfBytes?` reads all of them. Reading gives back what was written
(`listOfBytes?_flatMap_toBytes`), and writing gives back what was read, which can be any number of
whole records (`map_flatMap_toBytes_listOfBytes?`).

`bytes_encode_instructions` puts this together for filters.
-/

namespace ProcTrace

namespace Instruction

/-! ## One record -/

/-- The instruction with this record. -/
def ofRecord (code₀ code₁ jumpTrue jumpFalse operand₀ operand₁ operand₂ operand₃ : UInt8) :
    Instruction :=
  ⟨.ofNat (ofLittleEndian [code₀, code₁]), jumpTrue, jumpFalse,
    .ofNat (ofLittleEndian [operand₀, operand₁, operand₂, operand₃])⟩

theorem littleEndian_code (code : UInt16) :
    littleEndian 2 code.toNat = [code.toUInt8, (code >>> 8).toUInt8] := by
  simp only [littleEndian, List.cons.injEq, and_true]
  refine ⟨rfl, UInt8.toNat_inj.1 ?_⟩
  simp [Nat.shiftRight_eq_div_pow]

theorem littleEndian_operand (operand : UInt32) :
    littleEndian 4 operand.toNat = [operand.toUInt8, (operand >>> 8).toUInt8,
      (operand >>> 16).toUInt8, (operand >>> 24).toUInt8] := by
  simp only [littleEndian, List.cons.injEq, and_true, Nat.div_div_eq_div_mul]
  refine ⟨rfl, UInt8.toNat_inj.1 ?_, UInt8.toNat_inj.1 ?_, UInt8.toNat_inj.1 ?_⟩ <;>
    simp [Nat.shiftRight_eq_div_pow]

/-- The record of an instruction, byte by byte. -/
theorem toBytes_eq (i : Instruction) :
    i.toBytes = [i.code.toUInt8, (i.code >>> 8).toUInt8, i.jumpTrue, i.jumpFalse,
      i.operand.toUInt8, (i.operand >>> 8).toUInt8, (i.operand >>> 16).toUInt8,
      (i.operand >>> 24).toUInt8] := by
  rw [toBytes, littleEndian_code, littleEndian_operand]
  rfl

theorem toBytes_ofRecord
    (code₀ code₁ jumpTrue jumpFalse operand₀ operand₁ operand₂ operand₃ : UInt8) :
    (ofRecord code₀ code₁ jumpTrue jumpFalse operand₀ operand₁ operand₂ operand₃).toBytes =
      [code₀, code₁, jumpTrue, jumpFalse, operand₀, operand₁, operand₂, operand₃] := by
  have hcode : ofLittleEndian [code₀, code₁] < Nat.pow 256 2 := ofLittleEndian_lt _
  have hoperand : ofLittleEndian [operand₀, operand₁, operand₂, operand₃] < Nat.pow 256 4 :=
    ofLittleEndian_lt _
  have hcodeBytes : littleEndian 2 (ofLittleEndian [code₀, code₁]) = _ :=
    littleEndian_ofLittleEndian [code₀, code₁]
  have hoperandBytes :
      littleEndian 4 (ofLittleEndian [operand₀, operand₁, operand₂, operand₃]) = _ :=
    littleEndian_ofLittleEndian [operand₀, operand₁, operand₂, operand₃]
  rw [toBytes, ofRecord, UInt16.toNat_ofNat_of_lt' hcode, UInt32.toNat_ofNat_of_lt' hoperand,
    hcodeBytes, hoperandBytes]
  rfl

theorem ofRecord_self (i : Instruction) :
    ofRecord i.code.toUInt8 (i.code >>> 8).toUInt8 i.jumpTrue i.jumpFalse i.operand.toUInt8
      (i.operand >>> 8).toUInt8 (i.operand >>> 16).toUInt8 (i.operand >>> 24).toUInt8 = i := by
  have hcode : i.code.toNat < Nat.pow 256 2 := i.code.toNat_lt
  have hoperand : i.operand.toNat < Nat.pow 256 4 := i.operand.toNat_lt
  rw [ofRecord, ← littleEndian_code, ← littleEndian_operand, ofLittleEndian_littleEndian hcode,
    ofLittleEndian_littleEndian hoperand, UInt16.ofNat_toNat, UInt32.ofNat_toNat]

/-! ## Records in a row -/

/-- The instructions with these records, none if the last record is not complete. -/
def listOfBytes? : List UInt8 → Option (List Instruction)
  | [] => some []
  | code₀ :: code₁ :: jumpTrue :: jumpFalse :: operand₀ :: operand₁ :: operand₂ :: operand₃ ::
      rest =>
    (listOfBytes? rest).map
      (ofRecord code₀ code₁ jumpTrue jumpFalse operand₀ operand₁ operand₂ operand₃ :: ·)
  | _ => none

theorem listOfBytes?_toBytes_append (i : Instruction) (rest : List UInt8) :
    listOfBytes? (i.toBytes ++ rest) = (listOfBytes? rest).map (i :: ·) := by
  rw [i.toBytes_eq]
  simp only [List.cons_append, List.nil_append, listOfBytes?, i.ofRecord_self]

theorem listOfBytes?_flatMap_toBytes (instructions : List Instruction) :
    listOfBytes? (instructions.flatMap toBytes) = some instructions := by
  induction instructions with
  | nil => rfl
  | cons i rest ih => rw [List.flatMap_cons, listOfBytes?_toBytes_append, ih, Option.map_some]

/-- Bytes that are neither none nor begin with a record are no whole record. -/
theorem not_size_dvd_length {bytes : List UInt8} (hbytes : bytes ≠ [])
    (hrecord : ∀ code₀ code₁ jumpTrue jumpFalse operand₀ operand₁ operand₂ operand₃ rest,
      bytes ≠ code₀ :: code₁ :: jumpTrue :: jumpFalse :: operand₀ :: operand₁ :: operand₂ ::
        operand₃ :: rest) : ¬size ∣ bytes.length := by
  match bytes with
  | [] => exact absurd rfl hbytes
  | [_] | [_, _] | [_, _, _] | [_, _, _, _] | [_, _, _, _, _] | [_, _, _, _, _, _]
  | [_, _, _, _, _, _, _] => simp [size]
  | _ :: _ :: _ :: _ :: _ :: _ :: _ :: _ :: rest => exact absurd rfl (hrecord _ _ _ _ _ _ _ _ rest)

/-- Bytes that are a number of whole records are written back, and others are not read. -/
theorem map_flatMap_toBytes_listOfBytes? (bytes : List UInt8) :
    (listOfBytes? bytes).map (·.flatMap toBytes) =
      if size ∣ bytes.length then some bytes else none := by
  fun_induction listOfBytes? bytes with
  | case1 => rfl
  | case2 code₀ code₁ jumpTrue jumpFalse operand₀ operand₁ operand₂ operand₃ rest ih =>
    have hwhole : size ∣ rest.length + size ↔ size ∣ rest.length :=
      (Nat.dvd_add_iff_left (Nat.dvd_refl size)).symm
    show _ = if size ∣ rest.length + size then _ else _
    by_cases h : size ∣ rest.length
    · rw [if_pos h] at ih
      obtain ⟨instructions, hread, hwritten⟩ := Option.map_eq_some_iff.1 ih
      rw [if_pos (hwhole.2 h), hread, Option.map_some, Option.map_some, List.flatMap_cons,
        toBytes_ofRecord, hwritten]
      rfl
    · rw [if_neg h] at ih
      rw [if_neg (mt hwhole.1 h), Option.map_eq_none_iff.1 ih]
      rfl
  | case3 bytes hbytes hrecord =>
    rw [if_neg (not_size_dvd_length hbytes hrecord)]
    rfl

/-- The record of an instruction is found at its place, and behind the last one there is none. -/
theorem take_drop_flatMap_toBytes (instructions : List Instruction) (place : Nat) :
    ((instructions.flatMap toBytes).drop (size * place)).take size =
      match instructions[place]? with
      | some i => i.toBytes
      | none => [] := by
  induction instructions generalizing place with
  | nil => simp
  | cons i rest ih =>
    rw [List.flatMap_cons]
    cases place with
    | zero => exact List.take_left' i.length_toBytes
    | succ place =>
      rw [Nat.mul_succ, Nat.add_comm, ← List.drop_drop, List.drop_left' i.length_toBytes, ih,
        List.getElem?_cons_succ]

end Instruction

namespace SeccompFilter

/-- The bytes of a filter are a faithful encoding of its instructions. There are eight bytes for
each instruction, and at its place they are its operation code, its jump distances and its operand,
with the lowest byte of each first. The instructions are read back from the bytes, and all bytes
that are a number of whole records are those of the instructions that are read from them. So filters
have the same bytes only if they have the same instructions. -/
theorem bytes_encode_instructions (f : SeccompFilter) :
    f.toBytes.length = 8 * f.length ∧
    (∀ place, (f.toBytes.drop (8 * place)).take 8 =
      match f.instructions[place]? with
      | some i => [i.code.toUInt8, (i.code >>> 8).toUInt8, i.jumpTrue, i.jumpFalse,
          i.operand.toUInt8, (i.operand >>> 8).toUInt8, (i.operand >>> 16).toUInt8,
          (i.operand >>> 24).toUInt8]
      | none => []) ∧
    Instruction.listOfBytes? f.toBytes = some f.instructions ∧
    (∀ bytes : List UInt8,
      (Instruction.listOfBytes? bytes).map (fun instructions => toBytes ⟨f.index, instructions⟩) =
        if 8 ∣ bytes.length then some bytes else none) ∧
    ∀ other : SeccompFilter, f.toBytes = other.toBytes ↔ f.instructions = other.instructions := by
  have hread (f : SeccompFilter) : Instruction.listOfBytes? f.toBytes = some f.instructions :=
    Instruction.listOfBytes?_flatMap_toBytes f.instructions
  refine ⟨f.length_toBytes, fun place => ?record, hread f,
    Instruction.map_flatMap_toBytes_listOfBytes?, fun other => ⟨fun h => ?same, fun h => ?_⟩⟩
  case record =>
    simp only [← Instruction.toBytes_eq]
    exact Instruction.take_drop_flatMap_toBytes f.instructions place
  case same =>
    have hother := hread other
    rw [← h, hread f] at hother
    exact Option.some.inj hother
  · rw [toBytes, toBytes, h]

/-- The lowest byte of a field is the first. -/
example : toBytes ⟨0, [⟨0x20, 0, 0, 4⟩, ⟨0x0115, 3, 7, 0x01020304⟩]⟩ =
    [0x20, 0, 0, 0, 4, 0, 0, 0, 0x15, 1, 3, 7, 4, 3, 2, 1] := by
  decide

end SeccompFilter

end ProcTrace
