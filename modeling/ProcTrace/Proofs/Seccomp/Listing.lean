import Mathlib.Data.List.Infix
import ProcTrace.Proofs.Numeral
import ProcTrace.Seccomp.Listing

/-!
# Reading listings back

A listing tells all about the filters in it. Its lines are words with single spaces in between : the
heading of a filter, or the place and the fields of an instruction. `SeccompFilter.ofListing?` goes
through the lines from the last one up and gathers instructions until it meets their heading, where
it checks their places. It reads every listing as the filters that were listed
(`ofListing?_listAll`).

Numerals may have more digits than their columns are wide. Words are told apart by the spaces
between them, and no numeral has one.
-/

namespace ProcTrace

/-! ## Lines and words -/

/-- The words of one line. -/
def IsLine (words : List (List Char)) : Prop :=
  words ≠ [] ∧ ∀ word ∈ words, ' ' ∉ word ∧ '\n' ∉ word

/-- The line that some words make. -/
def lineOf (words : List (List Char)) : List Char :=
  [' '].intercalate words ++ ['\n']

/-- The lines of a text, each by its words. The last line has to be complete as well. -/
def linesOf? (text : List Char) : Option (List (List (List Char))) :=
  let parts := text.splitOn '\n'
  if parts.getLast? = some [] then some (parts.dropLast.map (List.splitOn ' ')) else none

theorem not_mem_intercalate {separator c : Char} (hc : c ≠ separator) {words : List (List Char)}
    (h : ∀ word ∈ words, c ∉ word) : c ∉ [separator].intercalate words := by
  induction words with
  | nil => simp
  | cons word rest ih =>
    obtain ⟨hword, hrest⟩ := List.forall_mem_cons.1 h
    cases rest with
    | nil => simpa using hword
    | cons next rest =>
      rw [List.intercalate_cons_cons]
      simp only [List.mem_append, List.mem_singleton, not_or]
      exact ⟨⟨hword, hc⟩, ih hrest⟩

theorem flatMap_lineOf (lines : List (List (List Char))) :
    lines.flatMap lineOf = ['\n'].intercalate (lines.map [' '].intercalate ++ [[]]) := by
  induction lines with
  | nil => rfl
  | cons words rest ih =>
    rw [List.flatMap_cons, ih, List.map_cons, List.cons_append,
      List.intercalate_cons_of_ne_nil (by simp), lineOf]

/-- Lines are split at the ends of lines and then at spaces. -/
theorem linesOf?_flatMap {lines : List (List (List Char))} (h : ∀ words ∈ lines, IsLine words) :
    linesOf? (lines.flatMap lineOf) = some lines := by
  have hparts : (lines.flatMap lineOf).splitOn '\n' = lines.map [' '].intercalate ++ [[]] := by
    rw [flatMap_lineOf]
    refine List.splitOn_intercalate '\n' (fun part hpart => ?_) (by simp)
    rcases List.mem_append.1 hpart with hpart | hpart
    · obtain ⟨words, hwords, rfl⟩ := List.mem_map.1 hpart
      exact not_mem_intercalate (by decide) fun word hword => ((h words hwords).2 word hword).2
    · rw [List.mem_singleton.1 hpart]
      exact List.not_mem_nil
  have hlines : (lines.map [' '].intercalate).map (List.splitOn ' ') = lines := by
    rw [List.map_map]
    refine (List.map_congr_left fun words hwords => ?_).trans (List.map_id lines)
    obtain ⟨hne, hplain⟩ := h words hwords
    exact List.splitOn_intercalate ' ' (fun word hword => (hplain word hword).1) hne
  simp only [linesOf?, hparts, List.getLast?_concat, List.dropLast_concat, if_true, hlines]

/-! ## Numerals in words -/

/-- The number of the numeral between `before` and `after`. -/
def numberBetween? (base : Nat) (before after word : List Char) : Option Nat := do
  numberOf? base (← (← word.dropPrefix? before).dropSuffix? after)

/-- The number of `bits` bits of a hexadecimal numeral. -/
def fieldOf? (bits : Nat) (word : List Char) : Option Nat :=
  (numberBetween? 16 ['0', 'x'] [] word).filter (· < Nat.pow 2 bits)

section

variable (base : Nat)

theorem numberBetween?_digits (hone : 1 < base) (hbase : base ≤ 16) (before after : List Char)
    (width n : Nat) :
    numberBetween? base before after (before ++ digits base width n ++ after) = some n := by
  have hbefore : (before ++ digits base width n ++ after).dropPrefix? before =
      some (digits base width n ++ after) := by
    rw [List.append_assoc]
    exact List.dropPrefix?_append_of_beq _ (beq_self_eq_true before)
  have hafter : (digits base width n ++ after).dropSuffix? after = some (digits base width n) :=
    List.dropSuffix?_eq_some_iff.2 ⟨after, rfl, beq_self_eq_true after⟩
  simp only [numberBetween?, hbefore, hafter, numberOf?_digits hone hbase, Option.bind_eq_bind,
    Option.bind_some]

theorem fieldOf?_digits {bits n : Nat} (h : n < Nat.pow 2 bits) (width : Nat) :
    fieldOf? bits ('0' :: 'x' :: digits 16 width n) = some n := by
  have hnumber : numberBetween? 16 ['0', 'x'] [] ('0' :: 'x' :: digits 16 width n) = some n := by
    have hread := numberBetween?_digits 16 (by decide) (by decide) ['0', 'x'] [] width n
    rwa [List.append_nil] at hread
  rw [fieldOf?, hnumber, Option.filter_some, if_pos (by simpa using h)]

/-- A character that is no digit is not in a numeral. -/
theorem not_mem_digits (hone : 1 < base) (hbase : base ≤ 16) {c : Char}
    (hc : ∀ digit < 16, digit.digitChar ≠ c) (width n : Nat) : c ∉ digits base width n := by
  intro hmem
  obtain ⟨digit, hdigit, rfl⟩ := exists_digit_of_mem hone hmem
  exact hc digit (by omega) rfl

/-- Neither a space nor the end of a line is in a numeral. -/
theorem not_mem_digits_of_blank (hone : 1 < base) (hbase : base ≤ 16) (width n : Nat) :
    ' ' ∉ digits base width n ∧ '\n' ∉ digits base width n :=
  ⟨not_mem_digits base hone hbase (by decide) width n,
    not_mem_digits base hone hbase (by decide) width n⟩

end

/-! ## The line of an instruction -/

namespace Instruction

/-- The words of the line. It begins with a space, hence with an empty word. -/
def words (place : Nat) (i : Instruction) : List (List Char) :=
  [[], digits 10 4 place ++ [':'], '0' :: 'x' :: digits 16 2 i.code.toNat,
    '0' :: 'x' :: digits 16 2 i.jumpTrue.toNat, '0' :: 'x' :: digits 16 2 i.jumpFalse.toNat,
    '0' :: 'x' :: digits 16 8 i.operand.toNat]

/-- The instruction of a line and its place. -/
def ofWords? : List (List Char) → Option (Instruction × Nat)
  | [[], place, code, jumpTrue, jumpFalse, operand] => do
    pure (⟨.ofNat (← fieldOf? 16 code), .ofNat (← fieldOf? 8 jumpTrue),
      .ofNat (← fieldOf? 8 jumpFalse), .ofNat (← fieldOf? 32 operand)⟩,
      ← numberBetween? 10 [] [':'] place)
  | _ => none

theorem toList_line (place : Nat) (i : Instruction) :
    (i.line place).toList = lineOf (i.words place) := by
  simp [line, words, lineOf, decimal, hexadecimal, List.intercalate_cons_cons]

theorem isLine_words (place : Nat) (i : Instruction) : IsLine (i.words place) := by
  have hplace := not_mem_digits_of_blank 10 (by decide) (by decide) 4 place
  have hfield := not_mem_digits_of_blank 16 (by decide) (by decide)
  refine ⟨by simp [words], ?_⟩
  simp [words, hplace, hfield]

theorem ofWords?_words (place : Nat) (i : Instruction) :
    ofWords? (i.words place) = some (i, place) := by
  have hplace : numberBetween? 10 [] [':'] (digits 10 4 place ++ [':']) = some place :=
    numberBetween?_digits 10 (by decide) (by decide) [] [':'] 4 place
  simp [words, ofWords?, hplace, fieldOf?_digits i.code.toNat_lt,
    fieldOf?_digits i.jumpTrue.toNat_lt, fieldOf?_digits i.jumpFalse.toNat_lt,
    fieldOf?_digits i.operand.toNat_lt]

end Instruction

/-! ## The lines of a filter -/

namespace SeccompFilter

/-- The words of the heading. -/
def headingWords (f : SeccompFilter) : List (List Char) :=
  ["filter".toList, digits 10 1 f.index, '(' :: digits 10 1 f.length, "instructions)".toList]

/-- The index of a filter and the number of its instructions, as its heading tells them. -/
def headingOf? : List (List Char) → Option (Nat × Nat)
  | [first, index, count, last] =>
    if first = "filter".toList ∧ last = "instructions)".toList then do
      pure (← numberOf? 10 index, ← numberBetween? 10 ['('] [] count)
    else none
  | _ => none

/-- The lines of the listing, by their words. -/
def lines (f : SeccompFilter) : List (List (List Char)) :=
  f.headingWords :: f.instructions.zipIdx.map fun (i, place) => i.words place

theorem headingOf?_headingWords (f : SeccompFilter) :
    headingOf? f.headingWords = some (f.index, f.length) := by
  have hcount : numberBetween? 10 ['('] [] ('(' :: digits 10 1 f.length) = some f.length := by
    have hread := numberBetween?_digits 10 (by decide) (by decide) ['('] [] 1 f.length
    rwa [List.append_nil] at hread
  simp [headingWords, headingOf?, numberOf?_digits, hcount]

theorem headingOf?_instruction (place : Nat) (i : Instruction) :
    headingOf? (i.words place) = none :=
  rfl

theorem isLine_headingWords (f : SeccompFilter) : IsLine f.headingWords := by
  have hnumber := not_mem_digits_of_blank 10 (by decide) (by decide) 1
  refine ⟨by simp [headingWords], ?_⟩
  simp [headingWords, hnumber]

theorem isLine_of_mem_lines {f : SeccompFilter} {words : List (List Char)} (h : words ∈ f.lines) :
    IsLine words := by
  rcases List.mem_cons.1 h with rfl | h
  · exact f.isLine_headingWords
  · obtain ⟨⟨i, place⟩, _, rfl⟩ := List.mem_map.1 h
    exact i.isLine_words place

theorem toList_listing (f : SeccompFilter) : f.listing.toList = f.lines.flatMap lineOf := by
  have hheading : f.heading.toList = lineOf f.headingWords := by
    simp [heading, headingWords, lineOf, decimal, List.intercalate_cons_cons]
  have hinstructions : (String.join (f.instructions.mapIdx Instruction.line)).toList =
      (f.instructions.zipIdx.map fun (i, place) => i.words place).flatMap lineOf := by
    rw [String.toList_join, List.mapIdx_eq_zipIdx_map, List.flatMap_map, List.flatMap_map]
    simp only [Instruction.toList_line]
  rw [listing, String.toList_append, hheading, hinstructions, lines, List.flatMap_cons]

theorem toList_listAll (filters : List SeccompFilter) :
    (listAll filters).toList = (filters.flatMap lines).flatMap lineOf := by
  rw [listAll, String.toList_join, List.flatMap_map, List.flatMap_assoc]
  simp only [toList_listing]

/-! ## Listings -/

/-- What was read of a listing, from below : instructions whose heading is still to come, and the
filters after them. -/
structure Below where
  pending : List (Instruction × Nat) := []
  filters : List SeccompFilter := []

/-- Reads one more line. A heading tells how many instructions are below it, and their places have
to be in order. -/
def Below.withLine? (words : List (List Char)) (below : Below) : Option Below :=
  match headingOf? words with
  | some (index, count) =>
    if below.pending.map Prod.snd = List.range count then
      some { filters := ⟨index, below.pending.map Prod.fst⟩ :: below.filters }
    else none
  | none =>
    (Instruction.ofWords? words).map fun placed => { below with pending := placed :: below.pending }

/-- The filters of a listing. -/
def ofListing? (text : List Char) : Option (List SeccompFilter) := do
  let read ← (← linesOf? text).foldrM Below.withLine? {}
  if read.pending = [] then some read.filters else none

/-- Instructions wait for their heading. -/
theorem foldrM_placed (placed : List (Instruction × Nat)) (filters : List SeccompFilter) :
    (placed.map fun (i, place) => i.words place).foldrM Below.withLine? { filters } =
      some { pending := placed, filters } := by
  induction placed with
  | nil => rfl
  | cons first rest ih =>
    rw [List.map_cons, List.foldrM_cons, ih]
    simp [Below.withLine?, headingOf?_instruction, Instruction.ofWords?_words]

/-- The lines of a filter put it in front of those below. -/
theorem foldrM_lines (f : SeccompFilter) (filters : List SeccompFilter) :
    f.lines.foldrM Below.withLine? { filters } = some { filters := f :: filters } := by
  rw [lines, List.foldrM_cons, foldrM_placed]
  simp [Below.withLine?, headingOf?_headingWords, List.range_eq_range', length]

theorem foldrM_flatMap_lines (filters : List SeccompFilter) :
    (filters.flatMap lines).foldrM Below.withLine? {} = some { filters } := by
  induction filters with
  | nil => rfl
  | cons f rest ih =>
    rw [List.flatMap_cons, List.foldrM_append, ih]
    exact foldrM_lines f rest

/-- Every listing is read as the filters that were listed. -/
theorem ofListing?_listAll (filters : List SeccompFilter) :
    ofListing? (listAll filters).toList = some filters := by
  have hlines : linesOf? (listAll filters).toList = some (filters.flatMap lines) := by
    rw [toList_listAll]
    refine linesOf?_flatMap fun words hwords => ?_
    obtain ⟨f, _, hwords⟩ := List.mem_flatMap.1 hwords
    exact isLine_of_mem_lines hwords
  simp [ofListing?, hlines, foldrM_flatMap_lines]

end SeccompFilter

end ProcTrace
