import ProcTrace.Numeral

/-!
# Reading numerals back

A numeral in a base up to sixteen is read as the number that was written, however many zeros fill it
up (`numberOf?_digits`). It has no other characters than digits (`exists_digit_of_mem`).
-/

namespace ProcTrace

variable {base width n : Nat}

/-! ## Reading -/

/-- The value of a digit. -/
def digitValue? (base : Nat) (c : Char) : Option Nat :=
  (List.range base).find? fun digit => digit.digitChar = c

/-- The number whose digits are those of `number` and then those of a text. -/
def readOn? (base number : Nat) (text : List Char) : Option Nat :=
  text.foldlM (fun number c => (digitValue? base c).map (base * number + ·)) number

/-- The number of a numeral, none for an empty one. -/
def numberOf? (base : Nat) (text : List Char) : Option Nat :=
  if text = [] then none else readOn? base 0 text

/-- The digits of the bases up to sixteen differ. -/
theorem digitValue?_digitChar (hbase : base ≤ 16) {digit : Nat} (h : digit < base) :
    digitValue? base digit.digitChar = some digit := by
  have hall : ∀ base < 17, ∀ digit < base, digitValue? base digit.digitChar = some digit := by
    decide +kernel
  exact hall base (Nat.lt_succ_of_le hbase) digit h

theorem readOn?_append (number : Nat) (text more : List Char) :
    readOn? base number (text ++ more) = (readOn? base number text).bind (readOn? base · more) :=
  List.foldlM_append

theorem readOn?_singleton (hbase : base ≤ 16) (number : Nat) {digit : Nat} (h : digit < base) :
    readOn? base number [digit.digitChar] = some (base * number + digit) := by
  simp [readOn?, digitValue?_digitChar hbase h]

/-- Zeros in front do not count. -/
theorem readOn?_replicate (hpos : 0 < base) (hbase : base ≤ 16) (count : Nat) :
    readOn? base 0 (List.replicate count '0') = some 0 := by
  induction count with
  | zero => rfl
  | succ count ih =>
    have hzero : readOn? base 0 ['0'] = some 0 := readOn?_singleton hbase 0 hpos
    rw [List.replicate_succ', readOn?_append, ih, Option.bind_some, hzero]

theorem readOn?_toDigits (hone : 1 < base) (hbase : base ≤ 16) (n : Nat) :
    readOn? base 0 (Nat.toDigits base n) = some n := by
  induction n using Nat.strongRecOn with
  | ind n ih =>
    by_cases hlt : n < base
    · rw [Nat.toDigits_of_lt_base hlt, readOn?_singleton hbase 0 hlt, Nat.mul_zero, Nat.zero_add]
    · have hle : base ≤ n := Nat.le_of_not_lt hlt
      have hless : n / base < n := Nat.div_lt_self (by omega) hone
      have hdigit : n % base < base := Nat.mod_lt n (by omega)
      rw [Nat.toDigits_of_base_le hone hle, readOn?_append, ih _ hless, Option.bind_some,
        readOn?_singleton hbase _ hdigit, Nat.div_add_mod]

/-- The number that was written is read back. -/
theorem numberOf?_digits (hone : 1 < base) (hbase : base ≤ 16) (width n : Nat) :
    numberOf? base (digits base width n) = some n := by
  have hne : digits base width n ≠ [] := by simp [digits, Nat.toDigits_ne_nil]
  rw [numberOf?, if_neg hne, digits, readOn?_append, readOn?_replicate (by omega) hbase,
    Option.bind_some, readOn?_toDigits hone hbase]

/-! ## The characters of a numeral -/

theorem exists_digit_of_mem_toDigits (hone : 1 < base) {c : Char} (h : c ∈ Nat.toDigits base n) :
    ∃ digit < base, digit.digitChar = c := by
  induction n using Nat.strongRecOn with
  | ind n ih =>
    by_cases hlt : n < base
    · rw [Nat.toDigits_of_lt_base hlt, List.mem_singleton] at h
      exact ⟨n, hlt, h.symm⟩
    · rw [Nat.toDigits_of_base_le hone (Nat.le_of_not_lt hlt), List.mem_append,
        List.mem_singleton] at h
      rcases h with h | h
      · exact ih _ (Nat.div_lt_self (by omega) hone) h
      · exact ⟨n % base, Nat.mod_lt n (by omega), h.symm⟩

/-- Every character is a digit of the base. -/
theorem exists_digit_of_mem (hone : 1 < base) {c : Char} (h : c ∈ digits base width n) :
    ∃ digit < base, digit.digitChar = c := by
  rcases List.mem_append.1 h with h | h
  · exact ⟨0, by omega, (List.eq_of_mem_replicate h).symm⟩
  · exact exists_digit_of_mem_toDigits hone h

end ProcTrace
