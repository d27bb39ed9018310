import ProcTrace.Proofs.Register.Read

/-!
# The bounds of fields

There is a field of 32 or 64 bits at an offset exactly if it lies within the limit of the register
image, with its end added up as a number and not as a word (`exists_ofBits_eq_ok_iff`). All that is
computed from such a field on words is exact (`exactLengths`), and its bytes are within every image
of the length to transfer. So readings fail because of the kernel only (`read_ne_internal`).

`field_iff_within_limit` puts this together.
-/

namespace ProcTrace

namespace Width

theorem ofBits_eq_ok_iff {bits : UInt32} {width : Width} :
    ofBits bits = .ok width ↔ width.bits = bits := by
  unfold ofBits
  constructor
  · intro h
    split at h
    next hbits =>
      obtain rfl := Except.ok.inj h
      exact hbits.symm
    next =>
      split at h
      next hbits =>
        obtain rfl := Except.ok.inj h
        exact hbits.symm
      next => cases h
  · rintro rfl
    cases width with
    | bits32 | bits64 => rfl

theorem exists_bits_eq_iff {bits : UInt32} :
    (∃ width : Width, width.bits = bits) ↔ bits = 32 ∨ bits = 64 := by
  constructor
  · rintro ⟨width, rfl⟩
    cases width with
    | bits32 => exact .inl rfl
    | bits64 => exact .inr rfl
  · rintro (rfl | rfl)
    · exact ⟨bits32, rfl⟩
    · exact ⟨bits64, rfl⟩

end Width

namespace RegisterField

variable {offset : UInt64} {bits : UInt32} {width : Width} {f : RegisterField}

/-! ## Where there is a field -/

/-- Every field is found at its own offset and width. Its end is not above the limit, so that it is
a word and the sum is not refused. -/
theorem ofWidth_self (f : RegisterField) : ofWidth f.offset f.width = .ok f := by
  have hsum : exactSum? f.offset f.width.bytes = some f.stop :=
    exactSum?_eq_some_iff.2 f.toNat_stop.symm
  have hle : f.stop ≤ imageLimit := UInt64.le_iff_toNat_le.2 f.stop_le
  unfold ofWidth
  split
  next stop hstop =>
    obtain rfl := Option.some.inj (hstop.symm.trans hsum)
    exact dif_pos hle
  next hnone => cases hnone.symm.trans hsum

theorem ofWidth_eq_ok_iff : ofWidth offset width = .ok f ↔ f.offset = offset ∧ f.width = width := by
  constructor
  · intro h
    unfold ofWidth at h
    split at h
    next stop hstop =>
      split at h
      next hle =>
        obtain rfl := Except.ok.inj h
        exact ⟨rfl, rfl⟩
      next => cases h
    next => cases h
  · rintro ⟨rfl, rfl⟩
    exact f.ofWidth_self

theorem ofBits_bits (offset : UInt64) (width : Width) :
    ofBits offset width.bits = ofWidth offset width := by
  cases width with
  | bits32 | bits64 => rfl

theorem ofBits_eq_ok_iff :
    ofBits offset bits = .ok f ↔ f.offset = offset ∧ f.width.bits = bits := by
  constructor
  · intro h
    cases hwidth : Width.ofBits bits with
    | error error =>
      rw [ofBits, hwidth] at h
      cases h
    | ok width =>
      obtain rfl := Width.ofBits_eq_ok_iff.1 hwidth
      rw [ofBits_bits, ofWidth_eq_ok_iff] at h
      exact ⟨h.1, h.2 ▸ rfl⟩
  · rintro ⟨rfl, rfl⟩
    rw [ofBits_bits, ofWidth_self]

/-- Neither is a width of another size accepted, nor does an offset near the largest word wrap
around. -/
theorem exists_ofBits_eq_ok_iff :
    (∃ f, ofBits offset bits = .ok f) ↔
      (bits = 32 ∨ bits = 64) ∧ offset.toNat + bits.toNat / 8 ≤ 4096 := by
  simp only [ofBits_eq_ok_iff, ← Width.exists_bits_eq_iff]
  constructor
  · rintro ⟨f, rfl, rfl⟩
    exact ⟨⟨f.width, rfl⟩, f.width.toNat_bytes ▸ f.fits⟩
  · rintro ⟨⟨width, rfl⟩, hfits⟩
    exact ⟨⟨offset, width, width.toNat_bytes ▸ hfits⟩, rfl, rfl⟩

/-! ## What is computed from a field -/

/-- The end of a field is computed on words, and so is the length to transfer, by padding the end
and rounding it down again. Each operation gives the exact number. -/
structure ExactLengths (f : RegisterField) : Prop where
  stop : f.stop.toNat = f.offset.toNat + f.width.bytes.toNat
  padded : (f.stop + registerWord).toNat = f.stop.toNat + registerWord.toNat
  last : (f.stop + registerWord - 1).toNat + 1 = (f.stop + registerWord).toNat
  coverLength : f.coverLength.toNat =
    (f.stop + registerWord - 1).toNat / registerWord.toNat * registerWord.toNat

theorem exactLengths (f : RegisterField) : f.ExactLengths := by
  have hstop := f.stop_le
  have hword : registerWord.toNat = 8 := rfl
  have hone : (1 : UInt64).toNat = 1 := rfl
  have hpadded : (f.stop + registerWord).toNat = f.stop.toNat + registerWord.toNat := by
    rw [UInt64.toNat_add]
    omega
  have hlast : (f.stop + registerWord - 1).toNat + 1 = (f.stop + registerWord).toNat := by
    rw [UInt64.toNat_sub, hpadded]
    omega
  have hsum : (f.stop + registerWord - 1).toNat = f.stop.toNat + 7 := by omega
  refine ⟨f.toNat_stop, hpadded, hlast, ?_⟩
  rw [f.toNat_coverLength, hsum, hword]

/-- Less than a word is transferred beyond the end of the field. -/
theorem coverLength_lt (f : RegisterField) : f.coverLength.toNat < f.stop.toNat + 8 := by
  rw [toNat_coverLength]
  omega

/-- Readings fail because of the kernel only. -/
theorem read_ne_internal (pid : Pid) (f : RegisterField) (replies : List Reply) (reason : String) :
    (f.read pid replies).result ≠ .error (.internal reason) := by
  have hkernel (errno : Errno) : Error.ofErrno pid errno ≠ .internal reason := fun h => by
    have herrno := Error.errno?_ofErrno pid errno
    rw [h] at herrno
    cases herrno
  match replies with
  | [] => exact fun h => hkernel _ (Except.error.inj h)
  | .error errno :: _ => exact fun h => hkernel errno (Except.error.inj h)
  | .ok answer :: rest =>
    obtain ⟨value, -, hread⟩ := read_cons pid f answer rest
    rw [hread]
    split
    · exact fun h => nomatch h
    · exact fun h => nomatch h

/-- There is a field of `bits` bits at `offset` if these are 32 or 64 bits and the exact sum of
offset and width is within the limit, and not otherwise. All lengths of the field are then exact.
The length to transfer is a number of whole words that reaches to the end of the field by less than
a word, and is within the limit. In every image of that length the bytes of the field are there and
form its value, so that no reading of the field ends with an internal error. -/
theorem field_iff_within_limit (offset : UInt64) (bits : UInt32) :
    let exactStop := offset.toNat + bits.toNat / 8
    ((∃ f, ofBits offset bits = .ok f) ↔ (bits = 32 ∨ bits = 64) ∧ exactStop ≤ 4096) ∧
    (∀ width : Width, width.bits = bits → ofWidth offset width = ofBits offset bits) ∧
    ∀ f, ofBits offset bits = .ok f →
      (f.ExactLengths ∧ f.stop.toNat = exactStop) ∧
      (exactStop ≤ f.coverLength.toNat ∧ f.coverLength.toNat < exactStop + 8 ∧
        8 ∣ f.coverLength.toNat ∧ f.coverLength.toNat ≤ 4096) ∧
      (∀ image : List UInt8, image.length = f.coverLength.toNat →
        ∃ bytes value, slice? offset.toNat exactStop image = some bytes ∧
          bytes.length = bits.toNat / 8 ∧ f.valueIn image = .ok value ∧
          value.toNat = ofLittleEndian bytes) ∧
      ∀ pid replies reason, (f.read pid replies).result ≠ .error (.internal reason) := by
  intro exactStop
  refine ⟨exists_ofBits_eq_ok_iff, fun width hwidth => ?width, fun f hf => ?field⟩
  case width =>
    subst hwidth
    exact (ofBits_bits offset width).symm
  case field =>
    obtain ⟨hoffset, hbits⟩ := ofBits_eq_ok_iff.1 hf
    have hwidth : f.width.bytes.toNat = bits.toNat / 8 := hbits ▸ f.width.toNat_bytes
    have hstop : f.stop.toNat = exactStop := by rw [f.toNat_stop, hoffset, hwidth]
    refine ⟨⟨f.exactLengths, hstop⟩, ?lengths, fun image himage => ?image, ?reading⟩
    case lengths =>
      rw [← hstop]
      exact ⟨f.stop_le_coverLength, f.coverLength_lt, f.dvd_coverLength,
        coverLength_le (by decide) f.stop_le⟩
    case image =>
      have hreach : f.stop.toNat ≤ image.length := himage ▸ f.stop_le_coverLength
      obtain ⟨value, hvalue, hbytes⟩ := exists_valueIn hreach
      refine ⟨f.bytesIn image, value, ?_, ?_, hvalue, hbytes⟩
      · rw [← hoffset, ← hstop]
        exact slice?_of_stop_le hreach
      · rw [length_bytesIn hreach, hwidth]
    case reading => exact fun pid replies reason => read_ne_internal pid f replies reason

/-- The last field of 64 bits takes up the whole limit. A field whose end would wrap around to the
beginning of the image is none. -/
theorem last_field_within_limit :
    (∃ f, ofBits 4088 64 = .ok f ∧ f.stop.toNat = 4096 ∧ f.coverLength.toNat = 4096) ∧
      ¬∃ f, ofBits 0xfffffffffffffffc 32 = .ok f := by
  have hwrapped := (field_iff_within_limit 0xfffffffffffffffc 32).1
  obtain ⟨hexists, -, hfield⟩ := field_iff_within_limit 4088 64
  obtain ⟨f, hf⟩ := hexists.2 ⟨.inr rfl, by decide⟩
  obtain ⟨⟨-, hstop⟩, ⟨hle, -, -, hlimit⟩, -⟩ := hfield f hf
  exact ⟨⟨f, hf, hstop, Nat.le_antisymm hlimit hle⟩, fun h => absurd (hwrapped.1 h).2 (by decide)⟩

end RegisterField

end ProcTrace
