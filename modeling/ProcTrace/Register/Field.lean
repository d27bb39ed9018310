import ProcTrace.Bytes
import ProcTrace.Error

/-!
# Fields of the register image

A field is a number of 32 or 64 bits at some byte offset of a tracee's register image. No field
reaches past `imageLimit`, and since offsets are 64-bit words, the end of a field is added up
without wrap-around (`exactSum?_eq_some_iff`). To read a field, the image is transferred up to the
end of the field, rounded up to whole register words (`RegisterField.coverLength`), and the bytes of
the field are a slice of it (`RegisterField.valueIn`).
-/

namespace ProcTrace

/-- The width of a field. -/
inductive Width
  | bits32 | bits64
  deriving DecidableEq, Repr

namespace Width

/-- The number of bits. -/
def bits : Width → UInt32
  | bits32 => 32
  | bits64 => 64

/-- The number of bytes. -/
def bytes : Width → UInt64
  | bits32 => 4
  | bits64 => 8

/-- The width of that many bits, if there is one. -/
def ofBits (bits : UInt32) : Except Error Width :=
  if bits = 32 then .ok bits32
  else if bits = 64 then .ok bits64
  else .error (.invalidArgument s!"register width = {bits}, expected 32 or 64")

end Width

/-- The sum of two words, none if it is not a word. -/
def exactSum? (a b : UInt64) : Option UInt64 :=
  if a ≤ a + b then some (a + b) else none

/-- The sum is exact. -/
theorem exactSum?_eq_some_iff {a b c : UInt64} :
    exactSum? a b = some c ↔ a.toNat + b.toNat = c.toNat := by
  have ha := a.toNat_lt
  have hb := b.toNat_lt
  have hc := c.toNat_lt
  have hsum : (a + b).toNat = (a.toNat + b.toNat) % 2 ^ 64 := UInt64.toNat_add a b
  unfold exactSum?
  split
  next h =>
    rw [UInt64.le_iff_toNat_le] at h
    rw [Option.some.injEq, ← UInt64.toNat_inj]
    omega
  next h =>
    rw [UInt64.le_iff_toNat_le] at h
    simp only [reduceCtorEq, false_iff]
    omega

/-- The bytes from place `start` up to place `stop`, none unless all of these places are there. -/
def slice? (start stop : Nat) (bytes : List UInt8) : Option (List UInt8) :=
  if start ≤ stop ∧ stop ≤ bytes.length then some ((bytes.drop start).take (stop - start))
  else none

/-- The number of bytes of the register image that fields can lie in. -/
def imageLimit : UInt64 := 4096

/-- The number of bytes of a register word. The kernel transfers whole words only. -/
def registerWord : UInt64 := 8

/-- A field of the register image. -/
structure RegisterField where
  offset : UInt64
  width : Width
  fits : offset.toNat + width.bytes.toNat ≤ imageLimit.toNat
  deriving DecidableEq

namespace RegisterField

/-- The field of some width at some offset, if it lies below the ceiling. -/
def ofWidth (offset : UInt64) (width : Width) : Except Error RegisterField :=
  match h : exactSum? offset width.bytes with
  | some stop =>
    if hs : stop ≤ imageLimit then
      .ok ⟨offset, width, exactSum?_eq_some_iff.1 h ▸ UInt64.le_iff_toNat_le.1 hs⟩
    else .error (beyondCeiling offset width)
  | none => .error (beyondCeiling offset width)
where
  /-- The field would reach past the ceiling. -/
  beyondCeiling (offset : UInt64) (width : Width) : Error :=
    .invalidArgument <| s!"register offset = {offset} with width = " ++ toString width.bits ++
      s!" exceeds {imageLimit} bytes"

/-- The field of that many bits at some offset. -/
def ofBits (offset : UInt64) (bits : UInt32) : Except Error RegisterField := do
  ofWidth offset (← Width.ofBits bits)

/-- The offset just past the field. -/
def stop (f : RegisterField) : UInt64 :=
  f.offset + f.width.bytes

/-- The number of bytes to transfer: up to the end of the field, in whole words. -/
def coverLength (f : RegisterField) : UInt64 :=
  (f.stop + registerWord - 1) / registerWord * registerWord

/-- The number that the field has in an image, or why it has none. -/
def valueIn (f : RegisterField) (image : List UInt8) : Except String UInt64 :=
  match slice? f.offset.toNat f.stop.toNat image with
  | none => .error "register image shorter than descriptor"
  | some bytes =>
    if bytes.length = f.width.bytes.toNat then .ok (UInt64.ofNat (ofLittleEndian bytes))
    else .error ("bad " ++ toString f.width.bits ++ "-bit register slice")

end RegisterField

end ProcTrace
