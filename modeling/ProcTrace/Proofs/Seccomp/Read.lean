import ProcTrace.Proofs.Transcript
import ProcTrace.Seccomp.Read

/-!
# Transcripts of the reading of filters

`Reads` lists all that the reading of one filter can come to, with the calls of each case, and
`whole_filter_or_error` says which of them the replies lead to. A chain of filters is read by steps,
each of which ends the reading (`readFrom_of_done`) or adds a filter (`readFrom_of_next`). Whatever
the kernel replies, the filters that are read are numbered in order (`numbered_readAll`).
-/

namespace ProcTrace.SeccompFilter

variable {pid : Pid} {limit : Option Nat} {earlier : List SeccompFilter}

/-- What the reading of a filter asks, and what becomes of it. -/
inductive Reads (pid : Pid) (index : Nat) : List Call → Except Error SeccompFilter → Prop
  | uncounted (errno : Errno) :
      Reads pid index [⟨.seccompFilter pid index none, .error errno⟩]
        (.error (readError pid index errno))
  | uncopied (counted : Answer) (errno : Errno) :
      Reads pid index
        [⟨.seccompFilter pid index none, .ok counted⟩,
          ⟨.seccompFilter pid index (some counted.instructionCount), .error errno⟩]
        (.error (readError pid index errno))
  | mismatched (counted copied : Answer)
      (differ : copied.instructionCount ≠ counted.instructionCount) :
      Reads pid index
        [⟨.seccompFilter pid index none, .ok counted⟩,
          ⟨.seccompFilter pid index (some counted.instructionCount), .ok copied⟩]
        (.error (.transferMismatch pid "seccomp filter instructions" counted.instructionCount
          copied.instructionCount))
  | whole (counted copied : Answer)
      (agree : copied.instructionCount = counted.instructionCount) :
      Reads pid index
        [⟨.seccompFilter pid index none, .ok counted⟩,
          ⟨.seccompFilter pid index (some counted.instructionCount), .ok copied⟩]
        (.ok ⟨index, copied.instructionBuffer counted.instructionCount⟩)

/-- The reading of a filter where both requests are answered. -/
theorem read_cons_cons (pid : Pid) (index : Nat) (counted copied : Answer) (rest : List Reply) :
    let count := counted.instructionCount
    let calls : List Call := [⟨.seccompFilter pid index none, .ok counted⟩,
      ⟨.seccompFilter pid index (some count), .ok copied⟩]
    read pid index (.ok counted :: .ok copied :: rest) =
      if copied.instructionCount = count then
        ⟨.ok ⟨index, copied.instructionBuffer count⟩, calls,
          [.filterLength pid index count, .filterRead pid index count], rest⟩
      else
        ⟨.error (.transferMismatch pid "seccomp filter instructions" count
          copied.instructionCount), calls, [.filterLength pid index count], rest⟩ := by
  intro count calls
  rw [read, Attempt.bind_of_ok (a := counted) rfl, Attempt.bind_of_ok (a := ()) rfl,
    Attempt.bind_of_ok (a := copied) rfl]
  by_cases h : copied.instructionCount = count
  · rw [if_pos h, if_pos h]
    rfl
  · rw [if_neg h, if_neg h]
    rfl

theorem reads_read (pid : Pid) (index : Nat) (replies : List Reply) :
    Reads pid index (read pid index replies).calls (read pid index replies).result := by
  match replies with
  | [] => exact .uncounted _
  | .error errno :: rest => exact .uncounted errno
  | [.ok counted] => exact .uncopied counted _
  | .ok counted :: .error errno :: rest => exact .uncopied counted errno
  | .ok counted :: .ok copied :: rest =>
    rw [read_cons_cons]
    split
    next agree => exact .whole counted copied agree
    next differ => exact .mismatched counted copied differ

/-! ## One filter, from the replies to its two requests -/

/-- The errors that the refusal of a request for the filter at `index` can be reported as. -/
inductive RefusedAs (pid : Pid) (index : Nat) (errno : Errno) : Error → Prop
  | missing (absent : errno = .enoent ∨ errno = .einval) :
      RefusedAs pid index errno (.noSuchFilter pid index errno)
  | notPermitted (denied : errno = .eperm ∨ errno = .eacces) :
      RefusedAs pid index errno (.notPermitted pid errno)
  | gone (gone : errno = .esrch ∨ errno = .echild) :
      RefusedAs pid index errno (.noSuchProcess pid errno)
  | other (unclassified : errno ∉ [.enoent, .einval, .eperm, .eacces, .esrch, .echild]) :
      RefusedAs pid index errno (.os errno)

theorem refusedAs_readError (pid : Pid) (index : Nat) (errno : Errno) :
    RefusedAs pid index errno (readError pid index errno) := by
  unfold readError Error.ofErrno
  split
  next absent => exact .missing absent
  next present =>
    split
    next denied => exact .notPermitted denied
    next permitted =>
      split
      next gone => exact .gone gone
      next there => exact .other (by simp_all)

/-- A filter is read as a whole or not at all. The first request counts its instructions, and the
second one copies as many of them. If the copy has another length than was counted, the reading
fails with both. -/
theorem whole_filter_or_error (pid : Pid) (index : Nat) (replies : List Reply) :
    let reading := read pid index replies
    let first := replies.headD (.error .esrch)
    let second := replies.tail.headD (.error .esrch)
    match first with
    | .error errno =>
      reading.calls = [⟨.seccompFilter pid index none, first⟩] ∧
        ∃ error, RefusedAs pid index errno error ∧ reading.result = .error error
    | .ok counted =>
      let count := counted.instructionCount
      reading.calls = [⟨.seccompFilter pid index none, first⟩,
          ⟨.seccompFilter pid index (some count), second⟩] ∧
        match second with
        | .error errno =>
          ∃ error, RefusedAs pid index errno error ∧ reading.result = .error error
        | .ok copied =>
          if copied.instructionCount = count then
            ∃ instructions, reading.result = .ok ⟨index, instructions⟩ ∧
              instructions.length = count ∧
              ∀ place < count, instructions[place]? = some (copied.instructions[place]?.getD .zero)
          else
            reading.result = .error (.transferMismatch pid "seccomp filter instructions" count
              copied.instructionCount) := by
  match replies with
  | [] => exact And.intro rfl ⟨_, refusedAs_readError pid index _, rfl⟩
  | .error errno :: _ => exact And.intro rfl ⟨_, refusedAs_readError pid index errno, rfl⟩
  | [.ok counted] => exact And.intro rfl ⟨_, refusedAs_readError pid index _, rfl⟩
  | .ok counted :: .error errno :: _ =>
    exact And.intro rfl ⟨_, refusedAs_readError pid index errno, rfl⟩
  | .ok counted :: .ok copied :: rest =>
    simp only [List.headD_cons, List.tail_cons, read_cons_cons]
    by_cases agree : copied.instructionCount = counted.instructionCount
    · rw [if_pos agree, if_pos agree]
      exact ⟨rfl, _, rfl, length_fitted _ _ _, fun place hplace => getElem?_fitted _ _ hplace⟩
    · rw [if_neg agree, if_neg agree]
      exact ⟨rfl, rfl⟩

/-! ## The chain of filters -/

/-- At the limit the reading of a chain ends, with nothing asked. -/
theorem readNext_of_limit (pid : Pid) (h : limit = some earlier.length) (replies : List Reply) :
    readNext pid limit earlier replies = ⟨.ok (.inl earlier), [], [], replies⟩ :=
  if_pos h

theorem readNext_of_not_limit (pid : Pid) (h : limit ≠ some earlier.length)
    (replies : List Reply) :
    readNext pid limit earlier replies =
      (read pid earlier.length replies).withResult
        (extend earlier (read pid earlier.length replies).result) :=
  if_neg h

/-- The reading of the filters that follow the filters `earlier`. -/
def readFrom (pid : Pid) (limit : Option Nat) (earlier : List SeccompFilter) :
    Attempt (List SeccompFilter) :=
  Attempt.loop (readNext pid limit) (length_rest_readNext_lt pid limit) earlier

theorem readAll_eq_readFrom (pid : Pid) (limit : Option Nat) :
    readAll pid limit = readFrom pid limit [] :=
  rfl

/-- The calls of the next step are among those of the whole reading. -/
theorem mem_calls_readFrom {replies : List Reply} {call : Call}
    (h : call ∈ (readNext pid limit earlier replies).calls) :
    call ∈ (readFrom pid limit earlier replies).calls :=
  Attempt.mem_calls_loop h

theorem readFrom_of_done {replies : List Reply} {filters : List SeccompFilter}
    (h : (readNext pid limit earlier replies).result = .ok (.inl filters)) :
    readFrom pid limit earlier replies =
      (readNext pid limit earlier replies).withResult (.ok filters) :=
  Attempt.loop_of_done h

theorem readFrom_of_next {replies : List Reply} {filters : List SeccompFilter}
    (h : (readNext pid limit earlier replies).result = .ok (.inr filters)) :
    readFrom pid limit earlier replies = (readNext pid limit earlier replies).followedBy
      (readFrom pid limit filters (readNext pid limit earlier replies).rest) :=
  Attempt.loop_of_next h

/-! ## Numbers -/

/-- The filters are numbered in order, from the first one installed. -/
def Numbered (filters : List SeccompFilter) : Prop :=
  filters.map index = List.range filters.length

theorem Numbered.concat (h : Numbered earlier) {filter : SeccompFilter}
    (hfilter : filter.index = earlier.length) : Numbered (earlier ++ [filter]) := by
  rw [Numbered, List.map_append, h, List.length_append, List.length_singleton, List.range_succ,
    List.map_singleton, hfilter]

theorem index_of_read {index : Nat} {replies : List Reply} {filter : SeccompFilter}
    (h : (read pid index replies).result = .ok filter) : filter.index = index := by
  have hreads := reads_read pid index replies
  rw [h] at hreads
  generalize (read pid index replies).calls = calls at hreads
  cases hreads with
  | whole => rfl

/-- A step ends with the filters that were read, or goes on with one more. -/
theorem eq_or_eq_concat_of_readNext {replies : List Reply}
    {taken : List SeccompFilter ⊕ List SeccompFilter}
    (h : (readNext pid limit earlier replies).result = .ok taken) :
    taken = .inl earlier ∨
      ∃ filter, filter.index = earlier.length ∧ taken = .inr (earlier ++ [filter]) := by
  by_cases hlimit : limit = some earlier.length
  · rw [readNext_of_limit pid hlimit] at h
    exact .inl (Except.ok.inj h).symm
  · rw [readNext_of_not_limit pid hlimit, Exchange.result_withResult] at h
    cases hread : (read pid earlier.length replies).result with
    | ok filter =>
      rw [hread] at h
      exact .inr ⟨filter, index_of_read hread, (Except.ok.inj h).symm⟩
    | error error =>
      rw [hread] at h
      cases error with
      | noSuchFilter => exact .inl (Except.ok.inj h).symm
      | _ => cases h

theorem numbered_readAll {replies : List Reply} {filters : List SeccompFilter}
    (h : (readAll pid limit replies).result = .ok filters) : Numbered filters := by
  suffices hall : ∀ earlier replies, Numbered earlier →
      ∀ filters, (readFrom pid limit earlier replies).result = .ok filters → Numbered filters from
    hall [] replies rfl filters h
  intro earlier replies
  refine Attempt.loop_induction (motive := fun earlier _ x =>
    Numbered earlier → ∀ filters, x.result = .ok filters → Numbered filters)
    ?failed ?done ?next earlier replies
  case failed => exact fun _ _ _ _ _ _ herror => nomatch herror
  case done =>
    intro earlier replies read hread hearlier filters hfilters
    obtain rfl := Except.ok.inj hfilters
    rcases eq_or_eq_concat_of_readNext hread with heq | ⟨_, _, heq⟩
    · rwa [Sum.inl.inj heq]
    · cases heq
  case next =>
    intro earlier replies more hmore ih hearlier
    refine ih ?_
    rcases eq_or_eq_concat_of_readNext hmore with heq | ⟨filter, hindex, heq⟩
    · cases heq
    · rw [Sum.inr.inj heq]
      exact hearlier.concat hindex

end ProcTrace.SeccompFilter
