import ProcTrace.CommandLine.Run
import ProcTrace.Proofs.InstalledFilters
import ProcTrace.Proofs.Seccomp.Listing

/-!
# All filters are written, or none

A run of the command line writes all the filters of a process or, if they could not be read, nothing
but a complaint. What it writes tells which filters they are. The listing is read back from the
bytes (`listed?_output`), and the raw bytes are those of the instructions in order. Any process and
any limit can be asked for (`ofList?_toList`).
-/

namespace ProcTrace

/-! ## Arguments -/

/-- The decimal numeral of a number, with a minus sign if it is negative. -/
def signedDigits : Int → List Char
  | .ofNat n => Nat.toDigits 10 n
  | .negSucc n => '-' :: Nat.toDigits 10 (n + 1)

theorem isDigit_of_toDigits_eq_cons {n : Nat} {c : Char} {rest : List Char}
    (h : Nat.toDigits 10 n = c :: rest) : c.isDigit = true :=
  Nat.isDigit_of_mem_toDigits (by decide) (by decide) (h ▸ List.mem_cons_self)

/-- A numeral begins with a digit, so no sign is taken off it. -/
theorem unsignedOfText?_toDigits {bits n : Nat} (h : n < Nat.pow 2 bits) :
    unsignedOfText? bits (Nat.toDigits 10 n) = some n := by
  have hread := naturalOfDigits?_toDigits n
  unfold unsignedOfText?
  split
  next rest hplus => exact absurd (isDigit_of_toDigits_eq_cons hplus) (by decide)
  next => rw [hread, Option.filter_some, if_pos (by simpa using h)]

theorem signedOfText?_signedDigits {bits : Nat} {n : Int}
    (h : -Int.ofNat (Nat.pow 2 (bits - 1)) ≤ n ∧ n < Int.ofNat (Nat.pow 2 (bits - 1))) :
    signedOfText? bits (signedDigits n) = some n := by
  cases n with
  | ofNat n =>
    have hread := naturalOfDigits?_toDigits n
    unfold signedOfText? signedDigits
    split
    next rest hplus => exact absurd (isDigit_of_toDigits_eq_cons hplus) (by decide)
    next rest hminus => exact absurd (isDigit_of_toDigits_eq_cons hminus) (by decide)
    next => rw [hread, Option.map_some, Option.filter_some, if_pos (by simpa using h)]
  | negSucc n =>
    have hread := naturalOfDigits?_toDigits (n + 1)
    simp only [signedOfText?, signedDigits, hread]
    show (some (Int.negSucc n)).filter _ = _
    rw [Option.filter_some, if_pos (decide_eq_true h)]

/-- No equals sign is in a numeral, so none of it is taken for the one before the value. -/
theorem not_mem_toDigits (n : Nat) : '=' ∉ Nat.toDigits 10 n := fun hmem =>
  absurd (Nat.isDigit_of_mem_toDigits (by decide) (by decide) hmem) (by decide)

theorem not_mem_signedDigits (n : Int) : '=' ∉ signedDigits n := by
  cases n with
  | ofNat n => exact not_mem_toDigits n
  | negSucc n => simpa [signedDigits] using not_mem_toDigits (n + 1)

/-- A value that is joined to a long name by an equals sign. -/
theorem Word.withValue_of_not_mem (name : ValueOption) {value : List Char} (h : '=' ∉ value) :
    withValue name (some ('=' :: value)) = assignment name value := by
  have hvalue : value.dropWhile (· = '=') = value := by
    cases value with
    | nil => rfl
    | cons c rest =>
      have hc : c ≠ '=' := fun hc => h (hc ▸ List.mem_cons_self)
      exact List.dropWhile_cons_of_neg (by simpa using hc)
  rw [withValue, joined, List.dropWhile_cons_of_pos (by simp), hvalue]

theorem Word.ofText_pid {value : List Char} (h : '=' ∉ value) :
    ofText ("--pid=".toList ++ value) = assignment .pid value := by
  rw [← withValue_of_not_mem .pid h]
  simp [ofText, ofLong]

theorem Word.ofText_limit {value : List Char} (h : '=' ∉ value) :
    ofText ("--limit=".toList ++ value) = assignment .limit value := by
  rw [← withValue_of_not_mem .limit h]
  simp [ofText, ofLong]

namespace PartialArguments

/-- A value that is joined to its option is taken, and then the rest. -/
theorem extend?_assignment (a : PartialArguments) {text value : List Char} {name : ValueOption}
    (h : Word.ofText text = .assignment name value) (rest : List (List Char)) :
    a.extend? (text :: rest) = (a.assign? value name).bind (extend? · rest) := by
  cases rest with
  | nil =>
    simp only [extend?, h]
    exact (Option.bind_fun_some _).symm
  | cons next rest => simp only [extend?, h]

theorem assign?_pid {a : PartialArguments} (h : a.pid = none) (pid : Int32) :
    a.assign? (signedDigits pid.toInt) .pid = some { a with pid := some ⟨pid.toInt⟩ } := by
  have hnumber : signedOfText? 32 (signedDigits pid.toInt) = some pid.toInt :=
    signedOfText?_signedDigits ⟨pid.le_toInt, pid.toInt_lt⟩
  simp [assign?, h, hnumber]

theorem assign?_limit {a : PartialArguments} (h : a.limit = none) (limit : UInt64) :
    a.assign? (Nat.toDigits 10 limit.toNat) .limit = some { a with limit := some limit.toNat } := by
  have hnumber : unsignedOfText? 64 (Nat.toDigits 10 limit.toNat) = some limit.toNat :=
    unsignedOfText?_toDigits limit.toNat_lt
  simp [assign?, h, hnumber]

end PartialArguments

namespace Arguments

/-- The argument that has a value joined to its name. -/
def joinedText (name : String) (value : List Char) : String :=
  name ++ String.ofList value

/-- Arguments that ask for this. -/
def toList (given : Arguments) : List String :=
  joinedText "--pid=" (signedDigits given.pid.number) ::
    ((given.limit.map fun limit => joinedText "--limit=" (Nat.toDigits 10 limit)).toList ++
      if given.raw then ["--raw"] else [])

theorem toList_joinedText (name : String) (value : List Char) :
    (joinedText name value).toList = name.toList ++ value := by
  simp [joinedText]

/-- Every process number and every limit can be asked for. -/
theorem ofList?_toList (pid : Int32) (limit : Option UInt64) (raw : Bool) :
    let given : Arguments := ⟨⟨pid.toInt⟩, limit.map UInt64.toNat, raw⟩
    ofList? given.toList = some given := by
  intro given
  have hraw (limit : Option Nat) : PartialArguments.extend? ⟨some given.pid, limit, false⟩
      ((if raw then ["--raw"] else []).map String.toList) = some ⟨some given.pid, limit, raw⟩ := by
    cases raw with
    | false | true => rfl
  have hread : PartialArguments.extend? {} (given.toList.map String.toList) =
      some ⟨some given.pid, given.limit, raw⟩ := by
    rw [toList, List.map_cons, toList_joinedText,
      PartialArguments.extend?_assignment _ (Word.ofText_pid (not_mem_signedDigits _)),
      PartialArguments.assign?_pid rfl, Option.bind_some, List.map_append]
    cases limit with
    | none => exact hraw none
    | some limit =>
      show PartialArguments.extend? _ ((joinedText "--limit=" _).toList :: _) = _
      rw [toList_joinedText, PartialArguments.extend?_assignment _ (Word.ofText_limit
        (not_mem_toDigits _)), PartialArguments.assign?_limit rfl, Option.bind_some]
      exact hraw _
  rw [ofList?, hread]
  rfl

end Arguments

/-! ## The filters that were read -/

theorem eq_ok_of_firstError {read : Except Error (List SeccompFilter)}
    {detached : Except Error Unit} {filters : List SeccompFilter}
    (h : firstError read detached = .ok filters) : read = .ok filters := by
  match read, detached with
  | .ok _, .ok () => exact h
  | .ok _, .error _ | .error _, _ => cases h

/-- Whenever the filters of a process are reported, they are numbered in order. -/
theorem numbered_installedFilters {pid : Pid} {limit : Option Nat} {replies : List Reply}
    {filters : List SeccompFilter} (h : (installedFilters pid limit replies).result = .ok filters) :
    SeccompFilter.Numbered filters := by
  cases hopened : (Session.attachStopped pid replies).result with
  | error error => cases (installedFilters_of_error limit hopened).2.symm.trans h
  | ok s =>
    obtain ⟨hstopped, hpid⟩ := Session.stopped_of_attachStopped hopened
    have hfirst := (installedFilters_of_stopped limit hopened hstopped hpid).2.symm.trans h
    exact SeccompFilter.numbered_readAll (eq_ok_of_firstError hfirst)

namespace CommandLine

/-! ## Bytes -/

theorem toList_loop (bytes : ByteArray) (index : Nat) (before : List UInt8) :
    ByteArray.toList.loop bytes index before = before.reverse ++ bytes.data.toList.drop index := by
  induction index, before using ByteArray.toList.loop.induct bytes with
  | case1 index before hlt ih =>
    have hindex : index < bytes.data.toList.length := by simpa using hlt
    have hbyte : bytes.get! index = bytes.data.toList[index] := by
      rw [ByteArray.get!, Array.getElem_toList]
      exact getElem!_pos bytes.data index (by simpa using hlt)
    rw [ByteArray.toList.loop, if_pos hlt, ih, hbyte, List.drop_eq_getElem_cons hindex,
      List.reverse_cons, List.append_assoc, List.singleton_append]
  | case2 index before hge =>
    have hle : bytes.data.toList.length ≤ index := by simpa using hge
    rw [ByteArray.toList.loop, if_neg hge, List.drop_eq_nil_of_le hle, List.append_nil]

theorem toArray_toList (bytes : ByteArray) : ⟨bytes.toList.toArray⟩ = bytes := by
  rw [ByteArray.toList, toList_loop, List.reverse_nil, List.nil_append, List.drop_zero]

/-- Text that was written as bytes is read back. -/
theorem fromUTF8?_toUTF8 (text : String) : String.fromUTF8? text.toUTF8 = some text := by
  rw [String.fromUTF8?]
  exact dif_pos text.isValidUTF8

/-- The filters of a listing that was written as bytes. -/
def listed? (bytes : List UInt8) : Option (List SeccompFilter) := do
  SeccompFilter.ofListing? (← String.fromUTF8? ⟨bytes.toArray⟩).toList

theorem listed?_output (filters : List SeccompFilter) :
    listed? (output false filters) = some filters := by
  have hbytes : (⟨(output false filters).toArray⟩ : ByteArray) =
      (SeccompFilter.listAll filters).toUTF8 := toArray_toList _
  rw [listed?, hbytes, fromUTF8?_toUTF8]
  exact SeccompFilter.ofListing?_listAll filters

/-- Eight bytes are written raw for every instruction. -/
theorem length_output_raw (filters : List SeccompFilter) :
    (output true filters).length =
      Instruction.size * (filters.flatMap SeccompFilter.instructions).length := by
  show (filters.flatMap SeccompFilter.toBytes).length = _
  induction filters with
  | nil => rfl
  | cons f rest ih =>
    rw [List.flatMap_cons, List.length_append, f.length_toBytes, ih, List.flatMap_cons,
      List.length_append, Nat.mul_add]
    rfl

/-! ## Runs -/

theorem runWith_apply (given : Arguments) (replies : List Reply) :
    let dumped := installedFilters given.pid given.limit replies
    runWith given replies = dumped.withResult (conclude given.raw dumped.result) := by
  intro dumped
  show dumped.followedBy ⟨conclude given.raw dumped.result, [], [], dumped.rest⟩ = _
  simp [Exchange.followedBy, Exchange.withResult]

/-- A run of the command line writes all or nothing, and loses nothing. Whatever it is asked for, it
makes the calls of reading the filters. If that fails it writes nothing at all to standard output,
and if not, exactly the filters that were read, which are numbered in order. Raw they are the bytes
of the instructions, one filter after the other, eight for each instruction. As a listing they can
be read back from what is written, whatever filters they are, so different filters are never written
alike. Any process and any limit can be given as arguments, and with arguments that it does not
understand it asks nothing of the kernel. -/
theorem written_whole_or_not_at_all :
    (∀ (given : Arguments) (replies : List Reply),
      let ran := runWith given replies
      let dumped := installedFilters given.pid given.limit replies
      ran.calls = dumped.calls ∧
        match dumped.result with
        | .error error => ran.result = .finished 1 [] (complaint error)
        | .ok filters => ran.result = .finished 0 (output given.raw filters) "" ∧
            filters.map SeccompFilter.index = List.range filters.length) ∧
      (∀ (arguments : List String) (replies : List Reply),
        match Arguments.ofList? arguments with
        | none => (run arguments replies).result = .usage ∧ (run arguments replies).calls = []
        | some given => run arguments replies = runWith given replies) ∧
      (∀ filters : List SeccompFilter,
        output true filters = filters.flatMap SeccompFilter.toBytes ∧
          (output true filters).length = 8 * (filters.flatMap SeccompFilter.instructions).length) ∧
      (∀ filters : List SeccompFilter, listed? (output false filters) = some filters) ∧
      Function.Injective (output false) ∧
      ∀ (pid : Int32) (limit : Option UInt64) (raw : Bool),
        let given : Arguments := ⟨⟨pid.toInt⟩, limit.map UInt64.toNat, raw⟩
        Arguments.ofList? given.toList = some given := by
  refine ⟨fun given replies => ?given, fun arguments replies => ?arguments,
    fun filters => ⟨rfl, length_output_raw filters⟩, listed?_output,
    fun filters others h => ?injective, Arguments.ofList?_toList⟩
  case given =>
    rw [runWith_apply]
    refine ⟨rfl, ?_⟩
    cases hdumped : (installedFilters given.pid given.limit replies).result with
    | error error => rfl
    | ok filters => exact ⟨rfl, numbered_installedFilters hdumped⟩
  case arguments =>
    unfold run
    cases Arguments.ofList? arguments with
    | none => exact ⟨rfl, rfl⟩
    | some given => rfl
  case injective =>
    have hread := listed?_output others
    rw [← h, listed?_output] at hread
    exact Option.some.inj hread

/-- Two filters, one of them without instructions, and a code of more than two digits. -/
example :
    SeccompFilter.listAll [⟨0, []⟩, ⟨1, [⟨0x120, 0, 7, 0x7fff0000⟩]⟩] =
      "filter 0 (0 instructions)\nfilter 1 (1 instructions)\n" ++
        " 0000: 0x120 0x00 0x07 0x7fff0000\n" := by
  decide +kernel

end CommandLine

end ProcTrace
