import ProcTrace.Proofs.Register.Bounds

/-!
# Registers as signed values

`registerValue` gives -1 for a field that is not read, but a field can also have this value, if it
has 64 bits that are all ones and in no other case (`toInt64_eq_neg_one_iff_of_read`). What fills up
the buffer behind the end of an image is never taken for such bits
(`bytesIn_imagePrefix_eq_ones_iff`). Whether a field was read shows in the log, which has a line for
every failure.

`failed_value_iff` says this of all fields that can be asked for.
-/

namespace ProcTrace

variable {α : Type} {pid : Pid} {offset : UInt64} {bits : UInt32} {replies : List Reply}

/-! ## Signed words -/

theorem toInt_toInt64 (value : UInt64) :
    value.toInt64.toInt =
      if value.toNat < Nat.pow 2 63 then (value.toNat : Int) else value.toNat - Nat.pow 2 64 := by
  have hhalf : Nat.pow 2 63 = 9223372036854775808 := rfl
  have hword : Nat.pow 2 64 = 18446744073709551616 := rfl
  have hcond : value.toInt64.toInt = if 2 * value.toNat < Nat.pow 2 64 then (value.toNat : Int)
      else value.toNat - Nat.pow 2 64 := BitVec.toInt_eq_toNat_cond value.toBitVec
  rw [hcond]
  split <;> split <;> omega

/-- A word and the signed number it is taken for are the same modulo 2^64. -/
theorem toInt_toInt64_emod (value : UInt64) :
    value.toInt64.toInt % Nat.pow 2 64 = value.toNat := by
  have hword : Nat.pow 2 64 = 18446744073709551616 := rfl
  have hlt := value.toNat_lt
  rw [toInt_toInt64, hword]
  split <;> omega

theorem toInt64_nonneg {value : UInt64} (h : value.toNat < Nat.pow 2 63) :
    0 ≤ value.toInt64 := by
  rw [Int64.le_iff_toInt_le, toInt_toInt64, if_pos h]
  exact Int.natCast_nonneg _

theorem toInt64_eq_neg_one_iff (value : UInt64) :
    value.toInt64 = -1 ↔ value.toNat + 1 = Nat.pow 2 64 := by
  have hhalf : Nat.pow 2 63 = 9223372036854775808 := rfl
  have hword : Nat.pow 2 64 = 18446744073709551616 := rfl
  have hone : (-1 : Int64).toInt = -1 := rfl
  rw [← Int64.toInt_inj, toInt_toInt64, hone]
  split <;> omega

/-! ## The log -/

/-- The lines that were logged at a level. -/
def Exchange.linesAt (x : Exchange α) (level : Level) : List String :=
  (x.log.filter fun record => record.level = level).map Record.line

@[simp] theorem Exchange.linesAt_withResult {β : Type} (x : Exchange α) (b : β) (level : Level) :
    (x.withResult b).linesAt level = x.linesAt level := rfl

@[simp] theorem Exchange.linesAt_followedBy {β : Type} (x : Exchange α) (y : Exchange β)
    (level : Level) : (x.followedBy y).linesAt level = x.linesAt level ++ y.linesAt level := by
  rw [linesAt, Exchange.log_followedBy, List.filter_append, List.map_append]
  rfl

/-- The line about a field that was not read. -/
def failureLine (pid : Pid) (offset : UInt64) (bits : UInt32) (error : Error) : String :=
  "DEBUG " ++ s!"register read failed pid={pid} offset={offset} width_bits={bits} err={error}"

namespace RegisterField

variable {f : RegisterField} {value : UInt64}

/-! ## Fields that are read -/

/-- A value is formed by bytes that the kernel has handed over. -/
theorem exists_answer_of_read (h : (f.read pid replies).result = .ok value) :
    ∃ answer, replies.head? = some (.ok answer) ∧
      value.toNat = ofLittleEndian (f.bytesIn (answer.imagePrefix f.coverLength.toNat)) := by
  match replies with
  | [] => cases h
  | .error errno :: _ => cases h
  | .ok answer :: rest =>
    obtain ⟨other, hbytes, hread⟩ := read_cons pid f answer rest
    rw [hread] at h
    split at h
    · cases h
    · obtain rfl := Except.ok.inj h
      exact ⟨answer, rfl, hbytes⟩

/-- All that is logged about a reading as such is a trace. -/
theorem linesAt_read (pid : Pid) (f : RegisterField) (replies : List Reply) :
    (f.read pid replies).linesAt .debug = [] := by
  match replies with
  | [] => rfl
  | .error errno :: _ => rfl
  | .ok answer :: rest =>
    obtain ⟨_, -, hread⟩ := read_cons pid f answer rest
    rw [hread]
    rfl

/-- The bytes of the field are all ones in the buffer exactly if they are in the image. Where the
image ends before the field does, the last byte of the field in the buffer is zero. -/
theorem bytesIn_imagePrefix_eq_ones_iff (f : RegisterField) (answer : Answer) :
    f.bytesIn (answer.imagePrefix f.coverLength.toNat) = List.replicate f.width.bytes.toNat 0xff ↔
      f.bytesIn answer.image = List.replicate f.width.bytes.toNat 0xff := by
  by_cases hreach : f.stop.toNat ≤ answer.image.length
  · rw [bytesIn_imagePrefix hreach]
  · have hstop := f.toNat_stop
    have hcover := f.stop_le_coverLength
    have hwidth : 0 < f.width.bytes.toNat := by cases f.width <;> decide
    constructor
    · intro hbuffer
      have hlast : f.width.bytes.toNat - 1 < f.width.bytes.toNat := by omega
      have hplace : f.offset.toNat + (f.width.bytes.toNat - 1) < f.coverLength.toNat := by omega
      have hpast : answer.image.length ≤ f.offset.toNat + (f.width.bytes.toNat - 1) := by omega
      have hbyte := congrArg (·[f.width.bytes.toNat - 1]?) hbuffer
      simp only [bytesIn, List.getElem?_take_of_lt hlast, List.getElem?_drop, Answer.imagePrefix,
        getElem?_fitted 0 answer.image hplace, List.getElem?_eq_none hpast,
        List.getElem?_replicate_of_lt hlast] at hbyte
      cases hbyte
    · intro himage
      have hlength := congrArg List.length himage
      rw [bytesIn, List.length_take, List.length_drop, List.length_replicate] at hlength
      omega

theorem toNat_lt_of_read (h : (f.read pid replies).result = .ok value) :
    value.toNat < Nat.pow 2 f.width.bits.toNat := by
  obtain ⟨answer, -, hvalue⟩ := exists_answer_of_read h
  exact hvalue ▸ ofLittleEndian_bytesIn_lt (f.stop_le_length_imagePrefix answer)

/-- The value -1 is that of a field of 64 bits that are all ones. Bytes of one length are told apart
by the number they form, and the largest number is formed by ones alone. -/
theorem toInt64_eq_neg_one_iff_of_read (hfield : ofBits offset bits = .ok f)
    (h : (f.read pid replies).result = .ok value) :
    value.toInt64 = -1 ↔ bits = 64 ∧ ∃ answer, replies.head? = some (.ok answer) ∧
      (answer.image.drop offset.toNat).take 8 = List.replicate 8 0xff := by
  obtain ⟨rfl, rfl⟩ := ofBits_eq_ok_iff.1 hfield
  rw [toInt64_eq_neg_one_iff]
  cases hwidth : f.width with
  | bits32 =>
    have hlt := toNat_lt_of_read h
    have hword : Nat.pow 2 Width.bits32.bits.toNat < Nat.pow 2 64 := by decide
    rw [hwidth] at hlt
    constructor
    · intro hvalue
      omega
    · exact fun hones => nomatch hones.1
  | bits64 =>
    obtain ⟨answer, hanswer, hvalue⟩ := exists_answer_of_read h
    have hlength := length_bytesIn (f.stop_le_length_imagePrefix answer)
    have hones := f.bytesIn_imagePrefix_eq_ones_iff answer
    have hword : Nat.pow 2 64 = Nat.pow 256 Width.bits64.bytes.toNat := by decide
    rw [hwidth] at hlength hones
    rw [hvalue, hword, ← ofLittleEndian_replicate, Nat.add_right_cancel_iff,
      ofLittleEndian_inj (hlength.trans List.length_replicate.symm), hones, bytesIn, hwidth]
    constructor
    · exact fun himage => ⟨rfl, answer, hanswer, himage⟩
    · rintro ⟨-, other, hother, himage⟩
      obtain rfl := Except.ok.inj (Option.some.inj (hother.symm.trans hanswer))
      exact himage

end RegisterField

/-! ## Fields by place and width -/

variable {f : RegisterField} {error : Error}

theorem registerValue_of_error (h : RegisterField.ofBits offset bits = .error error) :
    registerValue pid offset bits replies =
      ⟨-1, [], [.registerReadFailed pid offset bits error], replies⟩ := by
  rw [registerValue, h]
  rfl

theorem registerValue_of_ok (h : RegisterField.ofBits offset bits = .ok f) :
    registerValue pid offset bits replies =
      match (f.read pid replies).result with
      | .ok value => (f.read pid replies).withResult value.toInt64
      | .error error => (f.read pid replies).followedBy
          ⟨-1, [], [.registerReadFailed pid offset bits error], (f.read pid replies).rest⟩ := by
  have hfield : ((liftM (Except.ok f : Except Error RegisterField) : Attempt RegisterField) >>=
      RegisterField.read pid).run replies = f.read pid replies := rfl
  rw [registerValue, h, Tracer.bind_apply, hfield]
  cases (f.read pid replies).result with
  | ok value => simp [Exchange.followedBy, Exchange.withResult, Tracer.pure_apply]
  | error error => rfl

/-- The value of a field is -1 if there is no such field, if it is not read, or if it has 64 bits
that are all ones, and in no other case. A value that was read is the word of the field, taken as a
signed number, and not negative if the field has 32 bits. The calls are those of the reading, and
none for a field that does not exist. If there is no value, a line at debug level says why, and if
there is one, no line of that level is logged. -/
theorem failed_value_iff (pid : Pid) (offset : UInt64) (bits : UInt32) (replies : List Reply) :
    let field := RegisterField.ofBits offset bits
    let outcome := registerValue pid offset bits replies
    (outcome.result = -1 ↔
      (∃ error, field = .error error) ∨
      (∃ f error, field = .ok f ∧ (f.read pid replies).result = .error error) ∨
      (bits = 64 ∧ ∃ answer, replies.head? = some (.ok answer) ∧
        (answer.image.drop offset.toNat).take 8 = List.replicate 8 0xff)) ∧
    match field with
    | .error error =>
      outcome.calls = [] ∧ outcome.linesAt .debug = [failureLine pid offset bits error]
    | .ok f =>
      let reading := f.read pid replies
      outcome.calls = reading.calls ∧
        match reading.result with
        | .error error => outcome.linesAt .debug = [failureLine pid offset bits error]
        | .ok value =>
          outcome.result.toUInt64 = value ∧ outcome.result.toInt % Nat.pow 2 64 = value.toNat ∧
            (bits = 32 → 0 ≤ outcome.result) ∧ outcome.linesAt .debug = [] := by
  intro field outcome
  cases hfield : field with
  | error error =>
    have houtcome : outcome = _ := registerValue_of_error hfield
    rw [houtcome]
    exact ⟨⟨fun _ => .inl ⟨error, rfl⟩, fun _ => rfl⟩, rfl, rfl⟩
  | ok f =>
    have houtcome : outcome = _ := registerValue_of_ok hfield
    cases hread : (f.read pid replies).result with
    | error error =>
      simp only [hread] at houtcome ⊢
      rw [houtcome, Exchange.linesAt_followedBy, f.linesAt_read]
      exact ⟨⟨fun _ => .inr (.inl ⟨f, error, rfl, hread⟩), fun _ => rfl⟩, List.append_nil _, rfl⟩
    | ok value =>
      simp only [hread] at houtcome ⊢
      rw [houtcome, Exchange.linesAt_withResult, f.linesAt_read]
      refine ⟨?ones, rfl, value.toUInt64_toInt64, toInt_toInt64_emod value, fun hbits => ?nonneg,
        rfl⟩
      case ones =>
        rw [Exchange.result_withResult, RegisterField.toInt64_eq_neg_one_iff_of_read hfield hread]
        constructor
        · exact fun hones => .inr (.inr hones)
        · rintro (⟨_, h⟩ | ⟨other, error, h, herror⟩ | hones)
          · cases h
          · obtain rfl := Except.ok.inj h
            cases hread.symm.trans herror
          · exact hones
      case nonneg =>
        have hlt := RegisterField.toNat_lt_of_read hread
        rw [(RegisterField.ofBits_eq_ok_iff.1 hfield).2, hbits] at hlt
        exact toInt64_nonneg (Nat.lt_trans hlt (by decide))

/-- The value -1 without a failure. -/
example :
    let outcome := registerValue ⟨5⟩ 8 64 [.ok { image := List.replicate 16 0xff }]
    outcome.result = -1 ∧ outcome.log = [.registersCopied ⟨5⟩ 16 16] := by
  decide

end ProcTrace
