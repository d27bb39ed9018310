/-!
# Little-endian bytes

A number of `count` bytes, least significant byte first. Writing and reading undo each other:
`ofLittleEndian_littleEndian` for numbers that fit, `littleEndian_ofLittleEndian` for all bytes.
-/

namespace ProcTrace

/-- The lowest `count` bytes of a number, least significant first. -/
def littleEndian : Nat → Nat → List UInt8
  | 0, _ => []
  | count + 1, value => UInt8.ofNat value :: littleEndian count (value / 256)

/-- The number that bytes form, least significant first. -/
def ofLittleEndian : List UInt8 → Nat
  | [] => 0
  | byte :: bytes => byte.toNat + 256 * ofLittleEndian bytes

@[simp] theorem length_littleEndian (count value : Nat) :
    (littleEndian count value).length = count := by
  induction count generalizing value with
  | zero => rfl
  | succ count ih => simp [littleEndian, ih]

theorem ofLittleEndian_lt (bytes : List UInt8) :
    ofLittleEndian bytes < Nat.pow 256 bytes.length := by
  induction bytes with
  | nil => exact Nat.one_pos
  | cons byte bytes ih =>
    have hbyte := byte.toNat_lt
    have hpow : Nat.pow 256 (bytes.length + 1) = Nat.pow 256 bytes.length * 256 := rfl
    simp only [ofLittleEndian, List.length_cons, hpow]
    omega

/-- A number that fits is read back. -/
theorem ofLittleEndian_littleEndian {count value : Nat} (h : value < Nat.pow 256 count) :
    ofLittleEndian (littleEndian count value) = value := by
  induction count generalizing value with
  | zero =>
    have hone : Nat.pow 256 0 = 1 := rfl
    have hzero : value = 0 := by omega
    rw [hzero]
    rfl
  | succ count ih =>
    have hpow : Nat.pow 256 (count + 1) = Nat.pow 256 count * 256 := rfl
    have hrest : value / 256 < Nat.pow 256 count := by omega
    rw [littleEndian, ofLittleEndian, ih hrest, UInt8.toNat_ofNat']
    omega

/-- Bytes are written back. -/
@[simp] theorem littleEndian_ofLittleEndian (bytes : List UInt8) :
    littleEndian bytes.length (ofLittleEndian bytes) = bytes := by
  induction bytes with
  | nil => rfl
  | cons byte bytes ih =>
    have hlt := byte.toNat_lt
    have hhead : UInt8.ofNat (byte.toNat + 256 * ofLittleEndian bytes) = byte := by
      apply UInt8.toNat_inj.1
      rw [UInt8.toNat_ofNat']
      omega
    have htail : (byte.toNat + 256 * ofLittleEndian bytes) / 256 = ofLittleEndian bytes := by
      omega
    simp only [List.length_cons, ofLittleEndian, littleEndian, hhead, htail, ih]

/-- As many bytes that form the same number are the same. -/
theorem ofLittleEndian_inj {bytes others : List UInt8} (h : bytes.length = others.length) :
    ofLittleEndian bytes = ofLittleEndian others ↔ bytes = others := by
  constructor
  · intro hvalue
    rw [← littleEndian_ofLittleEndian bytes, hvalue, h, littleEndian_ofLittleEndian]
  · rintro rfl
    rfl

/-- Bytes that are all ones form the largest number. -/
theorem ofLittleEndian_replicate (count : Nat) :
    ofLittleEndian (List.replicate count 0xff) + 1 = Nat.pow 256 count := by
  induction count with
  | zero => rfl
  | succ count ih =>
    have hpow : Nat.pow 256 (count + 1) = Nat.pow 256 count * 256 := rfl
    have hbyte : (0xff : UInt8).toNat = 255 := rfl
    rw [List.replicate_succ, ofLittleEndian, hbyte]
    omega

end ProcTrace
