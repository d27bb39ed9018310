import ProcTrace.Proofs.Seccomp.Read
import ProcTrace.Session.Requests

/-!
# Reading a chain of filters

A kernel that has the programs of a chain installed tells the length of each, copies it, and refuses
every request beyond the end of the chain (`Call.FitsChain`). Under such a kernel the reading of the
filters gives the programs of the chain in order, numbered from the first one installed, as many as
the limit allows (`chain_read_in_order`). It is carried from filter to filter: the filters that were
read and those that are still to come are together those that are wanted, so every step either reads
the first of those to come, or ends because there are none (`readNext_of_fits`).

Every chain can be read, since there are replies that fit it (`exists_fitting_replies`).
-/

namespace ProcTrace

/-! ## What the kernel replies -/

/-- The reply to a request at a place of a chain where a program is installed, or where there is
none any more. Without a buffer only the number of instructions is told. -/
def Reply.FitsProgram (capacity : Option Nat) : Option (List Instruction) → Reply → Prop
  | some program, .ok answer =>
    answer.instructionCount = program.length ∧ (capacity.isSome → answer.instructions = program)
  | none, .error errno => errno = .enoent ∨ errno = .einval
  | _, _ => False

instance (capacity : Option Nat) (place : Option (List Instruction)) (reply : Reply) :
    Decidable (reply.FitsProgram capacity place) :=
  match place, reply with
  | some _, .ok _ => inferInstanceAs (Decidable (_ ∧ _))
  | none, .error _ => inferInstanceAs (Decidable (_ ∨ _))
  | some _, .error _ => .isFalse id
  | none, .ok _ => .isFalse id

/-- The place in the chain of `pid` that a request is about, and the capacity of its buffer if it
has one. -/
def Request.filterPlace? (pid : Pid) : Request → Option (Nat × Option Nat)
  | .seccompFilter asked index capacity => if asked = pid then some (index, capacity) else none
  | _ => none

/-- The call got a reply that fits the chain of the tracee `pid`. Other requests than those for its
filters may get any reply. -/
def Call.FitsChain (pid : Pid) (chain : List (List Instruction)) (call : Call) : Prop :=
  ∀ place ∈ call.request.filterPlace? pid, call.reply.FitsProgram place.2 chain[place.1]?

instance (pid : Pid) (chain : List (List Instruction)) (call : Call) :
    Decidable (call.FitsChain pid chain) :=
  inferInstanceAs (Decidable (∀ place ∈ _, _))

theorem Call.fitsChain_seccompFilter {pid : Pid} {chain : List (List Instruction)} {index : Nat}
    {capacity : Option Nat} {reply : Reply} :
    Call.FitsChain pid chain ⟨.seccompFilter pid index capacity, reply⟩ ↔
      reply.FitsProgram capacity chain[index]? := by
  simp [Call.FitsChain, Request.filterPlace?]

namespace SeccompFilter

variable {pid : Pid} {chain : List (List Instruction)} {limit : Option Nat}

/-! ## What is wanted -/

/-- The filters of a chain of programs. -/
def ofChain (chain : List (List Instruction)) : List SeccompFilter :=
  chain.mapIdx SeccompFilter.mk

/-- The filters of a chain, at most `limit` of them. -/
def wanted (limit : Option Nat) (chain : List (List Instruction)) : List SeccompFilter :=
  ofChain (chain.take (limit.getD chain.length))

/-- The requests that read a filter: one counts its instructions, the other copies them. -/
def readRequests (pid : Pid) (filter : SeccompFilter) : List Request :=
  [.seccompFilter pid filter.index none, .seccompFilter pid filter.index (some filter.length)]

/-- The request that finds the end of a chain of `length` filters. It is not made if the limit is
reached by then. -/
def endRequests (pid : Pid) (limit : Option Nat) (length : Nat) : List Request :=
  if limit.all (length < ·) then [.seccompFilter pid length none] else []

theorem length_wanted (limit : Option Nat) (chain : List (List Instruction)) :
    (wanted limit chain).length = min (limit.getD chain.length) chain.length := by
  simp [wanted, ofChain]

theorem getElem?_wanted (limit : Option Nat) (chain : List (List Instruction)) (index : Nat) :
    (wanted limit chain)[index]? =
      if index < limit.getD chain.length then chain[index]?.map (.mk index) else none := by
  rw [wanted, ofChain, List.getElem?_mapIdx, List.getElem?_take]
  split <;> rfl

/-- The filter after those that were read is the one at their number. -/
theorem of_append_eq_wanted {earlier later : List SeccompFilter} {filter : SeccompFilter}
    (h : earlier ++ filter :: later = wanted limit chain) :
    chain[earlier.length]? = some filter.instructions ∧ filter.index = earlier.length ∧
      limit ≠ some earlier.length := by
  have hget : (wanted limit chain)[earlier.length]? = some filter := by
    rw [← h]
    simp
  rw [getElem?_wanted] at hget
  split at hget
  next hlt =>
    obtain ⟨program, hprogram, rfl⟩ := Option.map_eq_some_iff.1 hget
    refine ⟨hprogram, rfl, ?_⟩
    rintro rfl
    exact Nat.lt_irrefl _ hlt
  next => cases hget

/-- Once all the filters that are wanted were read, either the limit is reached, or the chain is at
its end and nothing but a request shows it. -/
theorem endRequests_of_eq_wanted (pid : Pid) {earlier : List SeccompFilter}
    (h : earlier = wanted limit chain) :
    (limit = some earlier.length ∧ endRequests pid limit chain.length = []) ∨
      limit ≠ some earlier.length ∧ earlier.length = chain.length ∧
        endRequests pid limit chain.length = [.seccompFilter pid earlier.length none] := by
  have hlength := length_wanted limit chain
  rw [← h] at hlength
  cases limit with
  | none =>
    rw [Option.getD_none, Nat.min_self] at hlength
    exact Or.inr ⟨nofun, hlength, by simp [endRequests, hlength]⟩
  | some bound =>
    rw [Option.getD_some] at hlength
    by_cases hbound : chain.length < bound
    · rw [Nat.min_eq_right (Nat.le_of_lt hbound)] at hlength
      refine Or.inr ⟨?_, hlength, by simp [endRequests, hbound, hlength]⟩
      rw [hlength]
      rintro ⟨⟩
      exact Nat.lt_irrefl _ hbound
    · rw [Nat.min_eq_left (Nat.le_of_not_lt hbound)] at hlength
      exact Or.inl ⟨by rw [hlength], by simp [endRequests, hbound]⟩

/-! ## One filter -/

/-- Reading a filter that is installed gives the whole of it, after the two requests. -/
theorem Reads.of_fits {index : Nat} {program : List Instruction} {calls : List Call}
    {outcome : Except Error SeccompFilter} (h : Reads pid index calls outcome)
    (hplace : chain[index]? = some program) (hfits : ∀ call ∈ calls, call.FitsChain pid chain) :
    outcome = .ok ⟨index, program⟩ ∧
      calls.map Call.request = readRequests pid ⟨index, program⟩ := by
  cases h <;>
    simp only [List.forall_mem_cons, Call.fitsChain_seccompFilter, hplace,
      Reply.FitsProgram] at hfits
  case uncounted => exact hfits.1.elim
  case uncopied => exact hfits.2.1.elim
  case mismatched differ =>
    obtain ⟨⟨hcounted, -⟩, ⟨hcopied, -⟩, -⟩ := hfits
    exact (differ (hcopied.trans hcounted.symm)).elim
  case whole counted copied agree =>
    obtain ⟨⟨hcounted, -⟩, ⟨-, hcopied⟩, -⟩ := hfits
    rw [Answer.instructionBuffer, hcounted, hcopied rfl, fitted_self]
    exact ⟨rfl, rfl⟩

/-- The reading of a filter by two answers that both hold its program. -/
theorem read_of_whole_answers (pid : Pid) (index : Nat) (program : List Instruction)
    (rest : List Reply) :
    let answer : Answer := { instructions := program }
    ∃ log, read pid index (.ok answer :: .ok answer :: rest) =
      ⟨.ok ⟨index, program⟩,
        [⟨.seccompFilter pid index none, .ok answer⟩,
          ⟨.seccompFilter pid index (some program.length), .ok answer⟩], log, rest⟩ := by
  intro answer
  have hbuffer : answer.instructionBuffer answer.instructionCount = program := fitted_self _ _
  rw [read_cons_cons, if_pos rfl, hbuffer]
  exact ⟨_, rfl⟩

/-- Reading beyond the end of the chain fails so, after one request. -/
theorem Reads.of_fits_none {index : Nat} {calls : List Call}
    {outcome : Except Error SeccompFilter} (h : Reads pid index calls outcome)
    (hplace : chain[index]? = none) (hfits : ∀ call ∈ calls, call.FitsChain pid chain) :
    (∃ errno, outcome = .error (.noSuchFilter pid index errno)) ∧
      calls.map Call.request = [.seccompFilter pid index none] := by
  cases h <;>
    simp only [List.forall_mem_cons, Call.fitsChain_seccompFilter, hplace,
      Reply.FitsProgram] at hfits
  case uncounted errno => exact ⟨⟨errno, by rw [readError, if_pos hfits.1]⟩, rfl⟩
  all_goals exact hfits.1.elim

/-! ## The chain -/

/-- After some of the filters that are wanted the next step reads the first of those to come. -/
theorem readNext_of_fits {earlier later : List SeccompFilter} {filter : SeccompFilter}
    (hall : earlier ++ filter :: later = wanted limit chain) {replies : List Reply}
    (hfits : ∀ call ∈ (readNext pid limit earlier replies).calls, call.FitsChain pid chain) :
    (readNext pid limit earlier replies).result = .ok (.inr (earlier ++ [filter])) ∧
      (readNext pid limit earlier replies).calls.map Call.request = readRequests pid filter := by
  obtain ⟨hplace, hindex, hlimit⟩ := of_append_eq_wanted hall
  rw [readNext_of_not_limit pid hlimit, ← hindex] at hfits ⊢
  rw [← hindex] at hplace
  obtain ⟨hresult, hrequests⟩ := (reads_read pid filter.index replies).of_fits hplace hfits
  rw [hresult]
  exact ⟨rfl, hrequests⟩

/-- After all the filters that are wanted the next step ends the reading. -/
theorem readNext_of_fits_none {earlier : List SeccompFilter} (hall : earlier = wanted limit chain)
    {replies : List Reply}
    (hfits : ∀ call ∈ (readNext pid limit earlier replies).calls, call.FitsChain pid chain) :
    (readNext pid limit earlier replies).result = .ok (.inl earlier) ∧
      (readNext pid limit earlier replies).calls.map Call.request =
        endRequests pid limit chain.length := by
  rcases endRequests_of_eq_wanted pid hall with ⟨hlimit, hend⟩ | ⟨hlimit, hlength, hend⟩
  · rw [readNext_of_limit pid hlimit, hend]
    exact ⟨rfl, rfl⟩
  · have hplace : chain[earlier.length]? = none := by simp [hlength]
    rw [readNext_of_not_limit pid hlimit] at hfits ⊢
    obtain ⟨⟨errno, hresult⟩, hrequests⟩ :=
      (reads_read pid earlier.length replies).of_fits_none hplace hfits
    rw [hresult, hend]
    exact ⟨rfl, hrequests⟩

/-- Reading on after some of the filters that are wanted gives them all, and asks only for those to
come and for the end of the chain. -/
theorem readFrom_of_fits {earlier later : List SeccompFilter}
    (hall : earlier ++ later = wanted limit chain) {replies : List Reply}
    (hfits : ∀ call ∈ (readFrom pid limit earlier replies).calls, call.FitsChain pid chain) :
    (readFrom pid limit earlier replies).result = .ok (wanted limit chain) ∧
      (readFrom pid limit earlier replies).calls.map Call.request =
        later.flatMap (readRequests pid) ++ endRequests pid limit chain.length := by
  induction later generalizing earlier replies with
  | nil =>
    rw [List.append_nil] at hall
    obtain ⟨hresult, hrequests⟩ :=
      readNext_of_fits_none hall fun call hcall => hfits call (mem_calls_readFrom hcall)
    rw [readFrom_of_done hresult]
    exact ⟨congrArg _ hall, hrequests⟩
  | cons filter later ih =>
    obtain ⟨hresult, hrequests⟩ :=
      readNext_of_fits hall fun call hcall => hfits call (mem_calls_readFrom hcall)
    rw [readFrom_of_next hresult] at hfits ⊢
    have hrest := ih ((List.append_cons ..).symm.trans hall) fun call hcall =>
      hfits call (List.mem_append_right _ hcall)
    refine ⟨hrest.1, ?_⟩
    rw [Exchange.calls_followedBy, List.map_append, hrequests, hrest.2, List.flatMap_cons,
      List.append_assoc]

/-- Replies that fit the chain can be given to all that is still asked after some of the filters
that are wanted. -/
theorem exists_fitting_replies_from {earlier later : List SeccompFilter}
    (hall : earlier ++ later = wanted limit chain) :
    ∃ replies, ∀ call ∈ (readFrom pid limit earlier replies).calls, call.FitsChain pid chain := by
  induction later generalizing earlier with
  | nil =>
    rw [List.append_nil] at hall
    rcases endRequests_of_eq_wanted pid hall with ⟨hlimit, -⟩ | ⟨hlimit, hlength, -⟩
    · have hnext := readNext_of_limit pid hlimit []
      refine ⟨[], ?_⟩
      rw [readFrom_of_done (congrArg _ hnext), hnext]
      exact fun call hcall => absurd hcall List.not_mem_nil
    · have hplace : chain[earlier.length]? = none := by simp [hlength]
      have hnext := readNext_of_not_limit pid hlimit [.error .enoent]
      refine ⟨[.error .enoent], ?_⟩
      rw [readFrom_of_done (congrArg _ hnext), hnext]
      refine List.forall_mem_singleton.2 (Call.fitsChain_seccompFilter.2 ?_)
      rw [hplace]
      exact Or.inl rfl
  | cons filter later ih =>
    obtain ⟨hplace, hindex, hlimit⟩ := of_append_eq_wanted hall
    obtain ⟨rest, hrest⟩ := ih ((List.append_cons ..).symm.trans hall)
    obtain ⟨index, program⟩ := filter
    obtain rfl : index = earlier.length := hindex
    obtain ⟨log, hread⟩ := read_of_whole_answers pid earlier.length program rest
    let answer : Answer := { instructions := program }
    have hnext := readNext_of_not_limit pid hlimit (.ok answer :: .ok answer :: rest)
    rw [hread] at hnext
    refine ⟨.ok answer :: .ok answer :: rest, ?_⟩
    rw [readFrom_of_next (congrArg _ hnext), hnext, Exchange.calls_followedBy]
    refine List.forall_mem_append.2 ⟨?_, hrest⟩
    simp only [Exchange.calls_withResult, List.forall_mem_cons, Call.fitsChain_seccompFilter,
      hplace]
    exact ⟨⟨rfl, fun _ => rfl⟩, ⟨rfl, fun _ => rfl⟩, fun _ h => absurd h List.not_mem_nil⟩

/-- Every chain can be read, with every limit. -/
theorem exists_fitting_replies (pid : Pid) (limit : Option Nat) (chain : List (List Instruction)) :
    ∃ replies, ∀ call ∈ (readAll pid limit replies).calls, call.FitsChain pid chain := by
  rw [readAll_eq_readFrom]
  exact exists_fitting_replies_from (List.nil_append _)

/-- A process's filters are read in the order in which they were installed. Where the kernel's
replies fit a chain of programs, the reading gives all of them that the limit allows, each whole and
with its place in the chain. It asks twice for each, and once more to find the end of the chain, if
the limit is not reached before. A session of a stopped tracee gives and asks the same. -/
theorem chain_read_in_order (pid : Pid) (limit : Option Nat) (chain : List (List Instruction))
    (replies : List Reply)
    (hfits : ∀ call ∈ (readAll pid limit replies).calls, call.FitsChain pid chain) :
    (readAll pid limit replies).result = .ok (wanted limit chain) ∧
      (readAll pid limit replies).calls.map Call.request =
        (wanted limit chain).flatMap (readRequests pid) ++ endRequests pid limit chain.length ∧
      (limit = some 0 → (readAll pid limit replies).calls = []) ∧
      ∀ s : Session, s.pid = pid → s.state = .stopped →
        s.filters limit replies = readAll pid limit replies := by
  rw [readAll_eq_readFrom] at hfits ⊢
  obtain ⟨hresult, hrequests⟩ := readFrom_of_fits (List.nil_append _) hfits
  refine ⟨hresult, hrequests, ?noCall, ?session⟩
  case noCall =>
    rintro rfl
    exact List.map_eq_nil_iff.1 (hrequests.trans (by simp [wanted, ofChain, endRequests]))
  case session =>
    rintro s rfl hs
    rw [Session.filters, Session.whenStopped_of_stopped hs, readAll_eq_readFrom]

/-- A chain of three programs is read without a limit. The second of them is empty, and does not end
the reading. -/
theorem chain_read_past_empty_program :
    let program : List Instruction := [⟨0x20, 0, 0, 4⟩, ⟨0x06, 0, 0, 0x7fff0000⟩]
    let chain := [program, [], program.drop 1]
    let replies : List Reply := [.ok { returned := some 2 }, .ok { instructions := program },
      .ok {}, .ok {}, .ok { returned := some 1 }, .ok { instructions := program.drop 1 },
      .error .einval]
    let s : Session := { Session.attaching ⟨5⟩ with state := .stopped }
    let reading := s.filters none replies
    (∀ call ∈ (readAll ⟨5⟩ none replies).calls, call.FitsChain ⟨5⟩ chain) ∧
      reading.result = .ok [⟨0, program⟩, ⟨1, []⟩, ⟨2, program.drop 1⟩] ∧
      reading.calls.map Call.request =
        [.seccompFilter ⟨5⟩ 0 none, .seccompFilter ⟨5⟩ 0 (some 2),
          .seccompFilter ⟨5⟩ 1 none, .seccompFilter ⟨5⟩ 1 (some 0),
          .seccompFilter ⟨5⟩ 2 none, .seccompFilter ⟨5⟩ 2 (some 1),
          .seccompFilter ⟨5⟩ 3 none] := by
  intro program chain replies s reading
  have hfits : ∀ call ∈ (readAll ⟨5⟩ none replies).calls, call.FitsChain ⟨5⟩ chain := by
    decide +kernel
  obtain ⟨hresult, hrequests, -, hsession⟩ := chain_read_in_order ⟨5⟩ none chain replies hfits
  have hreading : reading = readAll ⟨5⟩ none replies := hsession s rfl rfl
  rw [hreading]
  exact ⟨hfits, hresult, hrequests⟩

end SeccompFilter

end ProcTrace
