/-!
# Numerals

Decimal and hexadecimal numerals are written with a least number of digits: shorter ones are filled
up with zeros on the left, and no digit is left out of longer ones. Decimal numerals are read with
or without a sign, as numbers of a fixed number of bits.
-/

namespace ProcTrace

/-! ## Writing -/

/-- The digits of `n` in a base, at least `width` of them. -/
def digits (base width n : Nat) : List Char :=
  let shortest := Nat.toDigits base n
  List.replicate (width - shortest.length) '0' ++ shortest

/-- A decimal numeral of at least `width` digits. -/
def decimal (width n : Nat) : String :=
  String.ofList (digits 10 width n)

/-- A hexadecimal numeral of at least `width` digits, in lower case. -/
def hexadecimal (width n : Nat) : String :=
  String.ofList (digits 16 width n)

/-- Two hexadecimal digits for every byte. -/
def hexOfBytes (bytes : List UInt8) : String :=
  String.join (bytes.map fun byte => hexadecimal 2 byte.toNat)

/-! ## Reading -/

/-- The number of a decimal numeral, none for an empty one. -/
def naturalOfDigits? (text : List Char) : Option Nat :=
  if text ≠ [] ∧ text.all Char.isDigit then some (Nat.ofDigitChars 10 text 0) else none

/-- A number below `2 ^ bits`, which may have a plus sign. -/
def unsignedOfText? (bits : Nat) (text : List Char) : Option Nat :=
  let value :=
    match text with
    | '+' :: rest => naturalOfDigits? rest
    | rest => naturalOfDigits? rest
  value.filter (· < Nat.pow 2 bits)

/-- A number of `bits` bits, one of them for the sign, which may have either sign in front. -/
def signedOfText? (bits : Nat) (text : List Char) : Option Int :=
  let value : Option Int :=
    match text with
    | '+' :: rest => (naturalOfDigits? rest).map Int.ofNat
    | '-' :: rest => (naturalOfDigits? rest).map fun n => -(n : Int)
    | rest => (naturalOfDigits? rest).map Int.ofNat
  let limit := Int.ofNat (Nat.pow 2 (bits - 1))
  value.filter fun n => -limit ≤ n ∧ n < limit

/-- The number of a decimal numeral is read back. -/
theorem naturalOfDigits?_toDigits (n : Nat) : naturalOfDigits? (Nat.toDigits 10 n) = some n := by
  have hne : Nat.toDigits 10 n ≠ [] := Nat.toDigits_ne_nil
  have hdigits : (Nat.toDigits 10 n).all Char.isDigit := by
    rw [List.all_eq_true]
    exact fun c hc => Nat.isDigit_of_mem_toDigits (by decide) (by decide) hc
  rw [naturalOfDigits?, if_pos ⟨hne, hdigits⟩, Nat.ofDigitChars_toDigits (by decide) (by decide)]

end ProcTrace
