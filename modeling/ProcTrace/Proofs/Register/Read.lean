import ProcTrace.Proofs.Transcript
import ProcTrace.Register.Read

/-!
# The reading of registers

A field is read from a buffer of whole words that reaches just past its end. `stop_le_coverLength`,
`dvd_coverLength` and `coverLength_le` say that no shorter buffer would do, and `read_cons` what
becomes of an answer, whatever number of bytes it reports as copied.

`described_bytes_read` puts this together. Where the kernel reports what it copied, a field that the
image has is read as the number that its own bytes in the image form, and other fields are not read
at all.
-/

namespace ProcTrace

/-- The number of bytes is an eighth of the number of bits. -/
theorem Width.toNat_bytes (width : Width) : width.bytes.toNat = width.bits.toNat / 8 := by
  cases width <;> rfl

namespace RegisterField

variable {f : RegisterField} {image : List UInt8}

/-! ## Lengths -/

/-- The end of a field is added up without wrap-around. -/
theorem toNat_stop (f : RegisterField) : f.stop.toNat = f.offset.toNat + f.width.bytes.toNat := by
  have hfits := f.fits
  have hlimit : imageLimit.toNat = 4096 := rfl
  rw [stop, UInt64.toNat_add]
  omega

theorem stop_le (f : RegisterField) : f.stop.toNat ≤ 4096 :=
  f.toNat_stop ▸ f.fits

theorem toNat_coverLength (f : RegisterField) :
    f.coverLength.toNat = (f.stop.toNat + 7) / 8 * 8 := by
  have hstop := f.stop_le
  have hword : registerWord.toNat = 8 := rfl
  have hone : (1 : UInt64).toNat = 1 := rfl
  have hsum : (f.stop + registerWord - 1).toNat = f.stop.toNat + 7 := by
    rw [UInt64.toNat_sub, UInt64.toNat_add, hword, hone]
    omega
  rw [coverLength, UInt64.toNat_mul, UInt64.toNat_div, hsum, hword]
  omega

/-- The length to transfer is a number of whole words. -/
theorem dvd_coverLength (f : RegisterField) : 8 ∣ f.coverLength.toNat := by
  rw [toNat_coverLength]
  exact Nat.dvd_mul_left ..

theorem stop_le_coverLength (f : RegisterField) : f.stop.toNat ≤ f.coverLength.toNat := by
  rw [toNat_coverLength]
  omega

/-- No smaller number of whole words reaches to the end of the field. -/
theorem coverLength_le {length : Nat} (hwords : 8 ∣ length) (hstop : f.stop.toNat ≤ length) :
    f.coverLength.toNat ≤ length := by
  rw [toNat_coverLength]
  omega

/-! ## Bytes -/

/-- The bytes of an image that the field lies on, those of them that the image has. -/
def bytesIn (f : RegisterField) (image : List UInt8) : List UInt8 :=
  (image.drop f.offset.toNat).take f.width.bytes.toNat

theorem length_bytesIn (h : f.stop.toNat ≤ image.length) :
    (f.bytesIn image).length = f.width.bytes.toNat := by
  rw [toNat_stop] at h
  simp only [bytesIn, List.length_take, List.length_drop]
  omega

/-- The bytes of the field are among those before its end. -/
theorem bytesIn_take_stop (f : RegisterField) (image : List UInt8) :
    f.bytesIn (image.take f.stop.toNat) = f.bytesIn image := by
  have hwidth : f.width.bytes.toNat ≤ f.stop.toNat - f.offset.toNat := by
    rw [toNat_stop]
    omega
  rw [bytesIn, List.drop_take, List.take_take, Nat.min_eq_left hwidth, bytesIn]

/-- The bytes of a field form a number of its width. -/
theorem ofLittleEndian_bytesIn_lt (h : f.stop.toNat ≤ image.length) :
    ofLittleEndian (f.bytesIn image) < Nat.pow 2 f.width.bits.toNat := by
  have hlt := ofLittleEndian_lt (f.bytesIn image)
  rw [length_bytesIn h] at hlt
  cases hw : f.width <;> rw [hw] at hlt <;> exact hlt

/-- The bytes of the field are a slice of every image that reaches to its end. -/
theorem slice?_of_stop_le (h : f.stop.toNat ≤ image.length) :
    slice? f.offset.toNat f.stop.toNat image = some (f.bytesIn image) := by
  have hstop := f.toNat_stop
  have hstart : f.offset.toNat ≤ f.stop.toNat := by omega
  have hwidth : f.stop.toNat - f.offset.toNat = f.width.bytes.toNat := by omega
  rw [slice?, if_pos ⟨hstart, h⟩, hwidth, bytesIn]

/-- The field has a value in every image that reaches to its end. -/
theorem exists_valueIn (h : f.stop.toNat ≤ image.length) :
    ∃ value, f.valueIn image = .ok value ∧ value.toNat = ofLittleEndian (f.bytesIn image) := by
  refine ⟨.ofNat (ofLittleEndian (f.bytesIn image)), ?_, ?_⟩
  · rw [valueIn, slice?_of_stop_le h]
    exact if_pos (length_bytesIn h)
  · have hlt := ofLittleEndian_bytesIn_lt h
    have hword : Nat.pow 2 f.width.bits.toNat ≤ Nat.pow 2 64 := by cases f.width <;> decide
    exact UInt64.toNat_ofNat_of_lt' (Nat.lt_of_lt_of_le hlt hword)

/-- The buffer reaches to the end of the field. -/
theorem stop_le_length_imagePrefix (f : RegisterField) (answer : Answer) :
    f.stop.toNat ≤ (answer.imagePrefix f.coverLength.toNat).length := by
  rw [Answer.imagePrefix, length_fitted]
  exact f.stop_le_coverLength

/-- The buffer holds the image's own bytes of a field that the image has. -/
theorem bytesIn_imagePrefix {answer : Answer} (h : f.stop.toNat ≤ answer.image.length) :
    f.bytesIn (answer.imagePrefix f.coverLength.toNat) = f.bytesIn answer.image := by
  rw [← f.bytesIn_take_stop, Answer.imagePrefix, take_fitted 0 f.stop_le_coverLength h,
    f.bytesIn_take_stop]

/-! ## Reading -/

/-- The reading of a field where the request is answered. The buffer reaches to the end of the
field, so the field has a value in it. -/
theorem read_cons (pid : Pid) (f : RegisterField) (answer : Answer) (rest : List Reply) :
    let length := f.coverLength.toNat
    let copied := answer.imageCount length
    ∃ value : UInt64, value.toNat = ofLittleEndian (f.bytesIn (answer.imagePrefix length)) ∧
      f.read pid (.ok answer :: rest) =
        ⟨if copied < f.stop.toNat then
            .error (.transferMismatch pid "register image bytes" f.stop.toNat copied)
          else .ok value,
          [⟨.registerSet pid length, .ok answer⟩], [.registersCopied pid length copied], rest⟩ := by
  intro length copied
  obtain ⟨value, hvalue, hbytes⟩ := exists_valueIn (f.stop_le_length_imagePrefix answer)
  refine ⟨value, hbytes, ?_⟩
  rw [read, Attempt.bind_of_ok (a := answer) rfl, Attempt.bind_of_ok (a := ()) rfl]
  by_cases hshort : copied < f.stop.toNat
  · rw [if_pos hshort, if_pos hshort]
    rfl
  · rw [if_neg hshort, if_neg hshort, hvalue]
    rfl

/-- A field is read with one request, for the fewest whole words that reach to its end. It has no
value if the kernel reports fewer bytes than that end, and its value is formed by the bytes that the
field has in the image if the report is true. -/
theorem described_bytes_read (pid : Pid) (f : RegisterField) (replies : List Reply) :
    let stop := f.offset.toNat + f.width.bits.toNat / 8
    let length := f.coverLength.toNat
    let reading := f.read pid replies
    (8 ∣ length ∧ stop ≤ length ∧ (∀ other, 8 ∣ other → stop ≤ other → length ≤ other) ∧
      length ≤ 4096) ∧
    reading.calls = [⟨.registerSet pid length, replies.headD (.error .esrch)⟩] ∧
    match replies.headD (.error .esrch) with
    | .error errno => reading.result = .error (.ofErrno pid errno)
    | .ok answer =>
      let copied := answer.imageCount length
      (if copied < stop then
        reading.result = .error (.transferMismatch pid "register image bytes" stop copied)
      else ∃ value, reading.result = .ok value) ∧
      (copied = min answer.image.length length →
        if stop ≤ answer.image.length then
          ∃ value, reading.result = .ok value ∧ value.toNat < Nat.pow 2 f.width.bits.toNat ∧
            value.toNat = ofLittleEndian (f.bytesIn answer.image)
        else ∃ error, reading.result = .error error) := by
  intro stop length
  have hstop : f.stop.toNat = stop := by rw [toNat_stop, Width.toNat_bytes]
  have hcover : stop ≤ length := hstop ▸ f.stop_le_coverLength
  refine ⟨⟨f.dvd_coverLength, hcover, fun other hwords hother => ?least, ?ceiling⟩, ?_⟩
  case least => exact coverLength_le hwords (hstop ▸ hother)
  case ceiling => exact coverLength_le (by decide) f.stop_le
  match replies with
  | [] => exact And.intro rfl rfl
  | .error errno :: _ => exact And.intro rfl rfl
  | .ok answer :: rest =>
    obtain ⟨value, hvalue, hread⟩ := read_cons pid f answer rest
    rw [hstop] at hread
    simp only [List.headD_cons, hread]
    refine ⟨rfl, ?_, fun honest => ?_⟩
    · split
      · rfl
      · exact ⟨value, rfl⟩
    · rw [honest]
      by_cases himage : stop ≤ answer.image.length
      · have hreach : f.stop.toNat ≤ answer.image.length := hstop ▸ himage
        rw [bytesIn_imagePrefix hreach] at hvalue
        rw [if_pos himage, if_neg (by omega)]
        exact ⟨value, rfl, hvalue ▸ ofLittleEndian_bytesIn_lt hreach, hvalue⟩
      · rw [if_neg himage, if_pos (by omega)]
        exact ⟨_, rfl⟩

end RegisterField

end ProcTrace
