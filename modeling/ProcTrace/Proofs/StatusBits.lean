import Mathlib.Data.Nat.Bitwise
import ProcTrace.Proofs.Session.StatusWord

/-!
# The bits of a status word

`WaitStatus.decode?` takes a status word apart by division. The kernel's own description of a status
word is in terms of masks and shifts, and `WaitStatus.Tells` follows it bit by bit : the lowest
seven bits say what happened, the eighth one whether memory was dumped, the second byte holds an
exit code or a stop signal, and an event code lies above.

The two agree. A word has a reading as a change exactly if its bits tell of that change
(`decode?_eq_changed_iff`).
-/

namespace ProcTrace

/-! ## Masks and shifts as arithmetic -/

/-- The lowest bits of a word are a remainder. -/
theorem toInt_and_mask (word : Int32) {mask : Int32} {k : Nat} (hk : k < 31)
    (hmask : mask.toBitVec.toNat = 2 ^ k - 1) : (word &&& mask).toInt = word.toInt % 2 ^ k := by
  have hpow : (2 : Int) ^ k = ((2 ^ k : Nat) : Int) := (Int.natCast_pow 2 k).symm
  have hdvd : ((2 ^ k : Nat) : Int) ∣ (2 ^ 32 : Nat) :=
    Int.natCast_dvd_natCast.2 (Nat.pow_dvd_pow 2 (by omega))
  -- What is left of the word after masking is too small to be negative.
  have hsmall : word.toBitVec.toNat % 2 ^ k < 2 ^ 31 :=
    Nat.lt_trans (Nat.mod_lt _ (Nat.two_pow_pos k)) (Nat.pow_lt_pow_right (by decide) hk)
  rw [← Int32.toInt_toBitVec, Int32.toBitVec_and, BitVec.toInt_and, hmask,
    Nat.and_two_pow_sub_one_eq_mod, ← Int32.toInt_toBitVec, BitVec.toInt_eq_toNat_bmod, hpow,
    ← Int.emod_emod_of_dvd _ hdvd, Int.bmod_emod, Int.emod_emod_of_dvd _ hdvd,
    Int.bmod_eq_of_le (by omega) (by omega)]
  rfl

/-- The bits of a word above some place are a quotient. -/
theorem toInt_shiftRight (word : Int32) {shift : Int32} {k : Nat}
    (hk : (shift.toBitVec.smod 32).toNat = k) :
    (word >>> shift).toInt = word.toInt / (2 ^ k : Nat) := by
  rw [← Int32.toInt_toBitVec, Int32.toBitVec_shiftRight, BitVec.sshiftRight', hk,
    BitVec.toInt_sshiftRight, Int.shiftRight_eq_div_pow, Int32.toInt_toBitVec]

/-- A single bit of a number. -/
theorem and_two_pow_eq_zero_iff (n k : Nat) : n &&& 2 ^ k = 0 ↔ n / 2 ^ k % 2 = 0 := by
  rw [Nat.and_two_pow, Nat.mul_eq_zero, or_iff_left (Nat.two_pow_pos k).ne', Bool.toNat_eq_zero,
    Nat.testBit_eq_decide_div_mod_eq, decide_eq_false_iff_not]
  omega

namespace WaitStatus

variable {word : Int32} {pid : Pid} {change : Change} {signal : Signal}

theorem toInt_low (word : Int32) : (word &&& 0x7f).toInt = word.toInt % 128 :=
  toInt_and_mask word (k := 7) (by decide) rfl

theorem toInt_lowByte (word : Int32) : (word &&& 0xff).toInt = word.toInt % 256 :=
  toInt_and_mask word (k := 8) (by decide) rfl

theorem toInt_above (word : Int32) : (word >>> 16).toInt = word.toInt / 65536 :=
  toInt_shiftRight word (k := 16) rfl

theorem toInt_secondByte (word : Int32) :
    (word >>> 8 &&& 0xff).toInt = (word.toInt / 256 % 256).toNat := by
  rw [toInt_lowByte, toInt_shiftRight word (k := 8) rfl]
  omega

theorem low_eq_zero_iff : word &&& 0x7f = 0 ↔ word.toInt % 128 = 0 := by
  rw [← Int32.toInt_inj, toInt_low]
  rfl

/-- The mark of a stop : seven low bits that are set, and no dump. -/
theorem lowByte_eq_iff :
    word &&& 0xff = 0x7f ↔ word.toInt % 128 = 127 ∧ word.toInt / 128 % 2 = 0 := by
  have hmark : (0x7f : Int32).toInt = 127 := rfl
  rw [← Int32.toInt_inj, toInt_lowByte, hmark]
  omega

/-- The mark of a syscall-stop in place of a signal. -/
theorem secondByte_eq_mark_iff :
    word >>> 8 &&& 0xff = 0x85 ↔ (word.toInt / 256 % 256).toNat = syscallMark := by
  have hmark : (0x85 : Int32).toInt = (syscallMark : Int) := rfl
  rw [← Int32.toInt_inj, toInt_secondByte, hmark]
  omega

theorem above_eq_zero_iff : word >>> 16 = 0 ↔ word.toInt / 65536 = 0 := by
  rw [← Int32.toInt_inj, toInt_above]
  rfl

/-- The bit that says whether memory was dumped. -/
theorem dumpBit_ne_zero_iff : word &&& 0x80 ≠ 0 ↔ word.toInt / 128 % 2 = 1 := by
  have hbit : (0x80 : Int32).toBitVec.toNat = 2 ^ 7 := rfl
  have hzero : (0 : Int32).toBitVec.toNat = 0 := rfl
  rw [ne_eq, ← Int32.toBitVec_inj, Int32.toBitVec_and, ← BitVec.toNat_inj, BitVec.toNat_and, hbit,
    hzero, and_two_pow_eq_zero_iff, ← Int32.toInt_toBitVec, BitVec.toInt_eq_toNat_cond]
  split <;> omega

/-! ## What the bits tell -/

/-- What a status word tells, bit by bit. -/
inductive Tells (word : Int32) : Change → Prop
  | exited (low : word &&& 0x7f = 0) :
      Tells word (.ended (.exited (word >>> 8 &&& 0xff).toInt))
  | killed {signal : Signal} (low : (word &&& 0x7f).toInt = signal.number) :
      Tells word (.ended (.killed signal (word &&& 0x80 ≠ 0)))
  | syscall (low : word &&& 0xff = 0x7f) (second : word >>> 8 &&& 0xff = 0x85) :
      Tells word (.stopped .syscall)
  | signal {signal : Signal} (low : word &&& 0xff = 0x7f)
      (second : (word >>> 8 &&& 0xff).toInt = signal.number) (above : word >>> 16 = 0) :
      Tells word (.stopped (.signal signal))
  | event {signal : Signal} (low : word &&& 0xff = 0x7f)
      (second : (word >>> 8 &&& 0xff).toInt = signal.number) (above : word >>> 16 ≠ 0) :
      Tells word (.stopped (.event signal (word >>> 16).toInt))

/-- A stop with a reading is told by the bits of its word. -/
theorem tells_of_stopReport? {report : StopReport} (low : word &&& 0xff = 0x7f)
    (h : stopReport? (word.toInt / 256 % 256).toNat (word.toInt / 65536) = some report) :
    Tells word (.stopped report) := by
  have hsecond := toInt_secondByte word
  unfold stopReport? at h
  split at h
  next hmark =>
    cases h
    exact .syscall low (secondByte_eq_mark_iff.2 hmark)
  next =>
    split at h
    all_goals
      obtain ⟨signal, hnumber, rfl⟩ := Option.map_eq_some_iff.1 h
      rw [← Signal.number_of_ofNumber? hnumber] at hsecond
    next hplain => exact .signal low hsecond (above_eq_zero_iff.2 hplain)
    next hcoded =>
      rw [← toInt_above]
      exact .event low hsecond fun hzero => hcoded (above_eq_zero_iff.1 hzero)

/-- Every reading as a change is told by the bits of the word. -/
theorem tells_of_decode? (h : decode? pid word = some (.changed pid change)) :
    Tells word change := by
  unfold decode? at h
  dsimp only at h
  split at h
  next hexit =>
    cases h
    rw [← toInt_secondByte]
    exact .exited (low_eq_zero_iff.2 hexit)
  next =>
    split at h
    next hkilled =>
      obtain ⟨signal, hnumber, hchange⟩ := Option.map_eq_some_iff.1 h
      cases hchange
      have hlow := toInt_low word
      have hsignal := Signal.number_of_ofNumber? hnumber
      simp only [← dumpBit_ne_zero_iff]
      exact .killed (by omega)
    next h127 =>
      split at h
      next hstop =>
        obtain ⟨report, hreport, hchange⟩ := Option.map_eq_some_iff.1 h
        cases hchange
        exact tells_of_stopReport? (lowByte_eq_iff.2 ⟨by omega, hstop⟩) hreport
      next => split at h <;> cases h

/-- The signal in the second byte is read as such, and is not the mark of a syscall-stop. -/
theorem ofNumber?_secondByte (second : (word >>> 8 &&& 0xff).toInt = signal.number) :
    Signal.ofNumber? (word.toInt / 256 % 256).toNat = some signal ∧
      (word.toInt / 256 % 256).toNat ≠ syscallMark := by
  rw [toInt_secondByte, Int.ofNat_inj] at second
  have hstandard := Signal.exists_ofNumber?_iff.1 ⟨signal, Signal.ofNumber?_number signal⟩
  rw [second, syscallMark]
  exact ⟨Signal.ofNumber?_number signal, by omega⟩

/-- The word of a stop is read by its second byte and what lies above. -/
theorem decode?_of_stop (pid : Pid) (low : word &&& 0xff = 0x7f) :
    decode? pid word = (stopReport? (word.toInt / 256 % 256).toNat (word.toInt / 65536)).map
      fun report => .changed pid (.stopped report) := by
  obtain ⟨hlow, hbit⟩ := lowByte_eq_iff.1 low
  unfold decode?
  dsimp only
  rw [if_neg (by omega), if_neg (by omega), if_pos hbit]

/-- What the bits tell is what is read. -/
theorem decode?_of_tells (pid : Pid) (h : Tells word change) :
    decode? pid word = some (.changed pid change) := by
  cases h with
  | exited low =>
    unfold decode?
    dsimp only
    rw [if_pos (low_eq_zero_iff.1 low), toInt_secondByte]
  | @killed signal low =>
    have hlow := toInt_low word
    have hstandard := Signal.exists_ofNumber?_iff.1 ⟨signal, Signal.ofNumber?_number signal⟩
    have hnumber : (word.toInt % 128).toNat = signal.number := by omega
    unfold decode?
    dsimp only
    rw [if_neg (by omega), if_pos (by omega), hnumber, Signal.ofNumber?_number]
    simp only [dumpBit_ne_zero_iff, Option.map_some]
  | syscall low second =>
    rw [decode?_of_stop pid low, secondByte_eq_mark_iff.1 second]
    rfl
  | signal low second above =>
    obtain ⟨hsignal, hunmarked⟩ := ofNumber?_secondByte second
    rw [decode?_of_stop pid low, stopReport?, if_neg hunmarked,
      if_pos (above_eq_zero_iff.1 above), hsignal]
    rfl
  | event low second above =>
    obtain ⟨hsignal, hunmarked⟩ := ofNumber?_secondByte second
    rw [decode?_of_stop pid low, stopReport?, if_neg hunmarked,
      if_neg fun hzero => above (above_eq_zero_iff.2 hzero), hsignal, toInt_above]
    rfl

/-- A word is read as a change exactly if its bits tell of it. -/
theorem decode?_eq_changed_iff :
    decode? pid word = some (.changed pid change) ↔ Tells word change :=
  ⟨tells_of_decode?, decode?_of_tells pid⟩

end WaitStatus

end ProcTrace
