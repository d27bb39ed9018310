import ProcTrace.Proofs.Seccomp.Read

/-!
# Limits

A kernel that has one reply to each request fixes what the reading of every filter comes to, and so
every step of the reading of a chain (`readNext_of_replied`). `Reading` puts the steps together, and
tells exactly the calls and the results that such a kernel can lead to (`yields_readAll_iff`).

A limit only cuts the reading short : as long as it is not reached, a step is the same with every
larger limit (`nextBy_eq_of_tightens`). So the filters that are read with a limit are the first of
those that are read with a larger one (`Reading.shortens`), and an error that is found with a limit
is found with every larger one (`Reading.loosen`). `limit_only_truncates` puts the two together.
-/

namespace ProcTrace

variable {α : Type}

/-- The calls got the replies of this kernel. -/
def Replied (kernel : Request → Reply) (calls : List Call) : Prop :=
  ∀ call ∈ calls, call.reply = kernel call.request

/-- Asked of this kernel, `x` makes these calls and comes to this result. -/
def Attempt.Yields (kernel : Request → Reply) (x : Attempt α) (calls : List Call)
    (result : Except Error α) : Prop :=
  Replied kernel calls ∧ ∃ replies, (x replies).calls = calls ∧ (x replies).result = result

namespace SeccompFilter

variable (kernel : Request → Reply) (pid : Pid)

/-! ## One filter -/

/-- The replies of the kernel to the requests for the filter at `index`. -/
def repliesFor (index : Nat) : List Reply :=
  match kernel (.seccompFilter pid index none) with
  | .error errno => [.error errno]
  | .ok counted =>
    [.ok counted, kernel (.seccompFilter pid index (some counted.instructionCount))]

/-- The reading of the filter at `index` from this kernel. -/
def readBy (index : Nat) : Exchange (Except Error SeccompFilter) :=
  read pid index (repliesFor kernel pid index)

variable {kernel pid} {limit larger : Option Nat} {earlier filters longer : List SeccompFilter}
  {calls others : List Call}

/-- A reading can be repeated with the replies that it got. -/
theorem Reads.exists_repeated {index : Nat} {result : Except Error SeccompFilter}
    (h : Reads pid index calls result) (rest : List Reply) :
    ∃ log, read pid index (calls.map Call.reply ++ rest) = ⟨result, calls, log, rest⟩ := by
  cases h with
  | uncounted | uncopied => exact ⟨_, rfl⟩
  | mismatched counted copied differ =>
    exact ⟨_, (read_cons_cons pid index counted copied rest).trans (if_neg differ)⟩
  | whole counted copied agree =>
    exact ⟨_, (read_cons_cons pid index counted copied rest).trans (if_pos agree)⟩

theorem Reads.repliesFor_eq {index : Nat} {result : Except Error SeccompFilter}
    (h : Reads pid index calls result) (hreplied : Replied kernel calls) :
    repliesFor kernel pid index = calls.map Call.reply := by
  unfold repliesFor
  cases h <;> simp only [Replied, List.forall_mem_cons] at hreplied
  case uncounted => rw [← hreplied.1, List.map_singleton]
  all_goals
    obtain ⟨hcounted, hcopied, -⟩ := hreplied
    rw [← hcounted]
    dsimp only
    rw [← hcopied]
    rfl

/-- The kernel fixes what the reading of a filter comes to. -/
theorem Reads.eq_readBy {index : Nat} {result : Except Error SeccompFilter}
    (h : Reads pid index calls result) (hreplied : Replied kernel calls) :
    calls = (readBy kernel pid index).calls ∧ result = (readBy kernel pid index).result := by
  obtain ⟨log, hread⟩ := h.exists_repeated []
  rw [List.append_nil] at hread
  rw [readBy, h.repliesFor_eq hreplied, hread]
  exact ⟨rfl, rfl⟩

theorem replied_readBy (kernel : Request → Reply) (pid : Pid) (index : Nat) :
    Replied kernel (readBy kernel pid index).calls := by
  cases hcounted : kernel (.seccompFilter pid index none) with
  | error errno =>
    have hreplies : repliesFor kernel pid index = [.error errno] := by rw [repliesFor, hcounted]
    rw [readBy, hreplies]
    exact List.forall_mem_singleton.2 hcounted.symm
  | ok counted =>
    let copy : Request := .seccompFilter pid index (some counted.instructionCount)
    have hreplies : repliesFor kernel pid index = [.ok counted, kernel copy] := by
      rw [repliesFor, hcounted]
    have hcalls : (readBy kernel pid index).calls =
        [⟨.seccompFilter pid index none, .ok counted⟩, ⟨copy, kernel copy⟩] := by
      rw [readBy, hreplies]
      cases kernel copy with
      | error errno => rfl
      | ok copied =>
        rw [read_cons_cons]
        split <;> rfl
    rw [hcalls]
    exact List.forall_mem_cons.2 ⟨hcounted.symm, List.forall_mem_singleton.2 rfl⟩

theorem Reads.request {index : Nat} {result : Except Error SeccompFilter}
    (h : Reads pid index calls result) {call : Call} (hcall : call ∈ calls) :
    ∃ capacity, call.request = .seccompFilter pid index capacity := by
  cases h with
  | uncounted =>
    rw [List.mem_singleton.1 hcall]
    exact ⟨_, rfl⟩
  | uncopied | mismatched | whole =>
    rcases List.mem_cons.1 hcall with rfl | hcall
    · exact ⟨_, rfl⟩
    · rw [List.mem_singleton.1 hcall]
      exact ⟨_, rfl⟩

/-! ## One step -/

/-- The step after the filters `earlier` with this kernel. -/
def nextBy (kernel : Request → Reply) (pid : Pid) (limit : Option Nat)
    (earlier : List SeccompFilter) :
    Exchange (Except Error (List SeccompFilter ⊕ List SeccompFilter)) :=
  readNext pid limit earlier (repliesFor kernel pid earlier.length)

theorem nextBy_of_limit (kernel : Request → Reply) (pid : Pid) (h : limit = some earlier.length) :
    (nextBy kernel pid limit earlier).calls = [] ∧
      (nextBy kernel pid limit earlier).result = .ok (.inl earlier) := by
  rw [nextBy, readNext_of_limit pid h]
  exact ⟨rfl, rfl⟩

theorem nextBy_of_not_limit (kernel : Request → Reply) (pid : Pid)
    (h : limit ≠ some earlier.length) :
    (nextBy kernel pid limit earlier).calls = (readBy kernel pid earlier.length).calls ∧
      (nextBy kernel pid limit earlier).result =
        extend earlier (readBy kernel pid earlier.length).result := by
  rw [nextBy, readNext_of_not_limit pid h]
  exact ⟨rfl, rfl⟩

theorem replied_nextBy (kernel : Request → Reply) (pid : Pid) (limit : Option Nat)
    (earlier : List SeccompFilter) : Replied kernel (nextBy kernel pid limit earlier).calls := by
  by_cases h : limit = some earlier.length
  · rw [(nextBy_of_limit kernel pid h).1]
    exact fun call hcall => absurd hcall List.not_mem_nil
  · rw [(nextBy_of_not_limit kernel pid h).1]
    exact replied_readBy kernel pid earlier.length

/-- With the replies of the kernel, a step is the one that it fixes. -/
theorem readNext_of_replied {replies : List Reply}
    (h : Replied kernel (readNext pid limit earlier replies).calls) :
    (readNext pid limit earlier replies).calls = (nextBy kernel pid limit earlier).calls ∧
      (readNext pid limit earlier replies).result = (nextBy kernel pid limit earlier).result := by
  by_cases hlimit : limit = some earlier.length
  · obtain ⟨hcalls, hresult⟩ := nextBy_of_limit kernel pid hlimit
    rw [hcalls, hresult, readNext_of_limit pid hlimit]
    exact ⟨rfl, rfl⟩
  · obtain ⟨hcalls, hresult⟩ := nextBy_of_not_limit kernel pid hlimit
    rw [hcalls, hresult]
    rw [readNext_of_not_limit pid hlimit] at h ⊢
    obtain ⟨hasked, hread⟩ := (reads_read pid earlier.length replies).eq_readBy h
    exact ⟨hasked, congrArg (extend earlier) hread⟩

/-- There are replies for the step that the kernel fixes, whatever replies are left after it. -/
theorem exists_readNext (kernel : Request → Reply) (pid : Pid) (limit : Option Nat)
    (earlier : List SeccompFilter) (rest : List Reply) :
    ∃ replies, (readNext pid limit earlier replies).calls =
        (nextBy kernel pid limit earlier).calls ∧
      (readNext pid limit earlier replies).result = (nextBy kernel pid limit earlier).result ∧
      (readNext pid limit earlier replies).rest = rest := by
  by_cases hlimit : limit = some earlier.length
  · obtain ⟨hcalls, hresult⟩ := nextBy_of_limit kernel pid hlimit
    refine ⟨rest, ?_⟩
    rw [hcalls, hresult, readNext_of_limit pid hlimit]
    exact ⟨rfl, rfl, rfl⟩
  · obtain ⟨hcalls, hresult⟩ := nextBy_of_not_limit kernel pid hlimit
    obtain ⟨log, hread⟩ := (reads_read pid earlier.length
      (repliesFor kernel pid earlier.length)).exists_repeated rest
    refine ⟨(readBy kernel pid earlier.length).calls.map Call.reply ++ rest, ?_⟩
    rw [hcalls, hresult, readNext_of_not_limit pid hlimit, readBy, hread]
    exact ⟨rfl, rfl, rfl⟩

/-! ## The chain -/

/-- The reading of a chain from this kernel, after the filters `earlier` : its calls, and what it
comes to. -/
inductive Reading (kernel : Request → Reply) (pid : Pid) (limit : Option Nat) :
    List SeccompFilter → List Call → Except Error (List SeccompFilter) → Prop
  | failed {earlier : List SeccompFilter} {error : Error}
      (step : (nextBy kernel pid limit earlier).result = .error error) :
      Reading kernel pid limit earlier (nextBy kernel pid limit earlier).calls (.error error)
  | done {earlier filters : List SeccompFilter}
      (step : (nextBy kernel pid limit earlier).result = .ok (.inl filters)) :
      Reading kernel pid limit earlier (nextBy kernel pid limit earlier).calls (.ok filters)
  | next {earlier longer : List SeccompFilter} {calls : List Call}
      {result : Except Error (List SeccompFilter)}
      (step : (nextBy kernel pid limit earlier).result = .ok (.inr longer))
      (later : Reading kernel pid limit longer calls result) :
      Reading kernel pid limit earlier ((nextBy kernel pid limit earlier).calls ++ calls) result

variable {result outcome : Except Error (List SeccompFilter)}

theorem Reading.replied (h : Reading kernel pid limit earlier calls result) :
    Replied kernel calls := by
  induction h with
  | failed | done => exact replied_nextBy kernel pid limit _
  | next step later ih => exact List.forall_mem_append.2 ⟨replied_nextBy kernel pid limit _, ih⟩

theorem reading_of_replied {replies : List Reply}
    (h : Replied kernel (readFrom pid limit earlier replies).calls) :
    Reading kernel pid limit earlier (readFrom pid limit earlier replies).calls
      (readFrom pid limit earlier replies).result := by
  refine Attempt.loop_induction (motive := fun earlier _ x =>
    Replied kernel x.calls → Reading kernel pid limit earlier x.calls x.result)
    ?failed ?done ?next earlier replies h
  case failed =>
    intro earlier replies error hr hreplied
    obtain ⟨hcalls, hresult⟩ := readNext_of_replied hreplied
    rw [Exchange.calls_withResult, hcalls]
    exact .failed (hresult.symm.trans hr)
  case done =>
    intro earlier replies filters hr hreplied
    obtain ⟨hcalls, hresult⟩ := readNext_of_replied hreplied
    rw [Exchange.calls_withResult, hcalls]
    exact .done (hresult.symm.trans hr)
  case next =>
    intro earlier replies longer hr ih hreplied
    obtain ⟨hstep, hlater⟩ := List.forall_mem_append.1 hreplied
    obtain ⟨hcalls, hresult⟩ := readNext_of_replied hstep
    rw [Exchange.calls_followedBy, hcalls]
    exact .next (hresult.symm.trans hr) (ih hlater)

theorem Reading.exists_replies (h : Reading kernel pid limit earlier calls result) :
    ∃ replies, (readFrom pid limit earlier replies).calls = calls ∧
      (readFrom pid limit earlier replies).result = result := by
  induction h with
  | @failed earlier error step =>
    obtain ⟨replies, hcalls, hresult, -⟩ := exists_readNext kernel pid limit earlier []
    refine ⟨replies, ?_⟩
    rw [readFrom, Attempt.loop_of_error (hresult.trans step)]
    exact ⟨hcalls, rfl⟩
  | @done earlier filters step =>
    obtain ⟨replies, hcalls, hresult, -⟩ := exists_readNext kernel pid limit earlier []
    refine ⟨replies, ?_⟩
    rw [readFrom_of_done (hresult.trans step)]
    exact ⟨hcalls, rfl⟩
  | @next earlier longer calls result step later ih =>
    obtain ⟨rest, hlater, houtcome⟩ := ih
    obtain ⟨replies, hcalls, hresult, rfl⟩ := exists_readNext kernel pid limit earlier rest
    refine ⟨replies, ?_⟩
    rw [readFrom_of_next (hresult.trans step), Exchange.calls_followedBy, hcalls, hlater]
    exact ⟨rfl, houtcome⟩

/-- The readings are all that the kernel can lead to. -/
theorem yields_readAll_iff : (readAll pid limit).Yields kernel calls result ↔
    Reading kernel pid limit [] calls result := by
  constructor
  · rintro ⟨hreplied, replies, rfl, rfl⟩
    exact reading_of_replied hreplied
  · intro h
    exact ⟨h.replied, h.exists_replies⟩

/-- The kernel fixes the calls and what they come to. -/
theorem Reading.unique (h : Reading kernel pid limit earlier calls result)
    (h' : Reading kernel pid limit earlier others outcome) : others = calls ∧ outcome = result := by
  induction h generalizing others with
  | failed step =>
    cases h' with
    | failed step' => exact ⟨rfl, congrArg _ (Except.error.inj (step'.symm.trans step))⟩
    | done step' | next step' => cases step'.symm.trans step
  | done step =>
    cases h' with
    | done step' =>
      obtain rfl := Sum.inl.inj (Except.ok.inj (step'.symm.trans step))
      exact ⟨rfl, rfl⟩
    | failed step' | next step' => cases step'.symm.trans step
  | next step later ih =>
    cases h' with
    | next step' later' =>
      obtain rfl := Sum.inr.inj (Except.ok.inj (step'.symm.trans step))
      obtain ⟨rfl, rfl⟩ := ih later'
      exact ⟨rfl, rfl⟩
    | failed step' | done step' => cases step'.symm.trans step

/-! ## Limits -/

/-- The first limit admits no more filters than the second. Without a limit any number is
admitted. -/
def Tightens : Option Nat → Option Nat → Prop
  | _, none => True
  | none, some _ => False
  | some bound, some other => bound ≤ other

/-- The limit admits that many filters. -/
def Within (limit : Option Nat) (filters : List SeccompFilter) : Prop :=
  ∀ bound ∈ limit, filters.length ≤ bound

theorem Within.lt (h : Within limit earlier) (hlimit : limit ≠ some earlier.length) :
    ∀ bound ∈ limit, earlier.length < bound := by
  rintro bound rfl
  exact Nat.lt_of_le_of_ne (h bound rfl) fun heq => hlimit (congrArg some heq.symm)

/-- One more filter is within the limit if the limit was not reached before. -/
theorem Within.concat (h : Within limit earlier) (hlimit : limit ≠ some earlier.length)
    (filter : SeccompFilter) : Within limit (earlier ++ [filter]) := by
  intro bound hbound
  rw [List.length_append, List.length_singleton]
  exact h.lt hlimit bound hbound

theorem Within.take (h : Within limit filters) :
    filters.take (limit.getD filters.length) = filters := by
  refine List.take_of_length_le ?_
  cases limit with
  | none => exact Nat.le_refl _
  | some bound => exact h bound rfl

/-- A larger limit is not reached before a smaller one. -/
theorem Tightens.not_reached (h : Tightens limit larger) (hwithin : Within limit earlier)
    (hlimit : limit ≠ some earlier.length) : larger ≠ some earlier.length := by
  rintro rfl
  cases limit with
  | none => exact h
  | some bound => exact Nat.not_lt.2 h (hwithin.lt hlimit bound rfl)

/-- As long as the limit is not reached, a step is the same with every larger limit. -/
theorem nextBy_eq_of_tightens (kernel : Request → Reply) (pid : Pid) (h : Tightens limit larger)
    (hwithin : Within limit earlier) (hlimit : limit ≠ some earlier.length) :
    (nextBy kernel pid larger earlier).calls = (nextBy kernel pid limit earlier).calls ∧
      (nextBy kernel pid larger earlier).result = (nextBy kernel pid limit earlier).result := by
  obtain ⟨hcalls, hresult⟩ := nextBy_of_not_limit kernel pid hlimit
  obtain ⟨hmore, hlater⟩ := nextBy_of_not_limit kernel pid (h.not_reached hwithin hlimit)
  exact ⟨hmore.trans hcalls.symm, hlater.trans hresult.symm⟩

/-- A step ends with the filters that were read, or goes on with one more. -/
theorem nextBy_ends (h : (nextBy kernel pid limit earlier).result = .ok (.inl filters)) :
    filters = earlier := by
  rcases eq_or_eq_concat_of_readNext h with heq | ⟨_, _, heq⟩
  · exact Sum.inl.inj heq
  · cases heq

theorem nextBy_goes_on (h : (nextBy kernel pid limit earlier).result = .ok (.inr longer)) :
    limit ≠ some earlier.length ∧ ∃ filter,
      (readBy kernel pid earlier.length).result = .ok filter ∧ longer = earlier ++ [filter] := by
  have hlimit : limit ≠ some earlier.length := fun hlimit => by
    cases h.symm.trans (nextBy_of_limit kernel pid hlimit).2
  have hextend := h.symm.trans (nextBy_of_not_limit kernel pid hlimit).2
  refine ⟨hlimit, ?_⟩
  cases hread : (readBy kernel pid earlier.length).result with
  | ok filter =>
    rw [hread] at hextend
    exact ⟨filter, rfl, Sum.inr.inj (Except.ok.inj hextend)⟩
  | error error =>
    rw [hread] at hextend
    cases error <;> cases hextend

/-- What was read before is kept. -/
theorem Reading.isPrefix (h : Reading kernel pid limit earlier calls result) :
    ∀ filters, result = .ok filters → earlier <+: filters := by
  induction h with
  | failed => exact fun _ hresult => nomatch hresult
  | done step =>
    rintro _ ⟨⟩
    obtain rfl := nextBy_ends step
    exact List.prefix_rfl
  | next step later ih =>
    obtain ⟨-, filter, -, rfl⟩ := nextBy_goes_on step
    exact fun filters hresult => (List.prefix_append _ _).trans (ih filters hresult)

/-- With the limit the reading makes the first of these calls, and gives as many of the filters as
the limit allows. -/
def Shortens (kernel : Request → Reply) (pid : Pid) (limit : Option Nat)
    (earlier : List SeccompFilter) (calls : List Call)
    (result : Except Error (List SeccompFilter)) : Prop :=
  ∃ fewer outcome, Reading kernel pid limit earlier fewer outcome ∧ fewer <+: calls ∧
    ∀ filters, result = .ok filters → outcome = .ok (filters.take (limit.getD filters.length))

theorem Reading.shortens_of_limit (h : Reading kernel pid larger earlier calls result)
    (hlimit : limit = some earlier.length) : Shortens kernel pid limit earlier calls result := by
  obtain ⟨hcalls, hstep⟩ := nextBy_of_limit kernel pid hlimit
  refine ⟨_, _, .done hstep, hcalls ▸ List.nil_prefix, fun filters hresult => ?_⟩
  obtain ⟨more, rfl⟩ := h.isPrefix filters hresult
  rw [hlimit, Option.getD_some, List.take_left]

/-- A tighter limit only cuts the reading short. -/
theorem Reading.shortens (htightens : Tightens limit larger)
    (h : Reading kernel pid larger earlier calls result) (hwithin : Within limit earlier) :
    Shortens kernel pid limit earlier calls result := by
  induction h with
  | @failed earlier error step =>
    by_cases hlimit : limit = some earlier.length
    · exact (Reading.failed step).shortens_of_limit hlimit
    · obtain ⟨hcalls, hstep⟩ := nextBy_eq_of_tightens kernel pid htightens hwithin hlimit
      rw [hcalls]
      exact ⟨_, _, .failed (hstep.symm.trans step), List.prefix_rfl, fun _ h => nomatch h⟩
  | @done earlier filters step =>
    by_cases hlimit : limit = some earlier.length
    · exact (Reading.done step).shortens_of_limit hlimit
    · obtain ⟨hcalls, hstep⟩ := nextBy_eq_of_tightens kernel pid htightens hwithin hlimit
      rw [hcalls]
      refine ⟨_, _, .done (hstep.symm.trans step), List.prefix_rfl, ?_⟩
      rintro _ ⟨⟩
      rw [nextBy_ends step, hwithin.take]
  | @next earlier longer calls result step later ih =>
    by_cases hlimit : limit = some earlier.length
    · exact (Reading.next step later).shortens_of_limit hlimit
    · obtain ⟨hcalls, hstep⟩ := nextBy_eq_of_tightens kernel pid htightens hwithin hlimit
      obtain ⟨-, filter, -, rfl⟩ := nextBy_goes_on step
      obtain ⟨fewer, outcome, hfewer, hprefix, htake⟩ := ih (hwithin.concat hlimit filter)
      rw [hcalls]
      exact ⟨_, outcome, .next (hstep.symm.trans step) hfewer,
        (List.prefix_append_right_inj _).2 hprefix, htake⟩

/-- An error that is found with a limit is found with every larger one. -/
theorem Reading.loosen (htightens : Tightens limit larger)
    (h : Reading kernel pid limit earlier calls result) (hwithin : Within limit earlier) :
    ∀ error, result = .error error → Reading kernel pid larger earlier calls (.error error) := by
  induction h with
  | @failed earlier error step =>
    rintro _ ⟨⟩
    have hlimit : limit ≠ some earlier.length := fun hlimit => by
      cases step.symm.trans (nextBy_of_limit kernel pid hlimit).2
    obtain ⟨hcalls, hstep⟩ := nextBy_eq_of_tightens kernel pid htightens hwithin hlimit
    rw [← hcalls]
    exact .failed (hstep.trans step)
  | done => exact fun _ hresult => nomatch hresult
  | @next earlier longer calls result step later ih =>
    obtain ⟨hlimit, filter, -, rfl⟩ := nextBy_goes_on step
    obtain ⟨hcalls, hstep⟩ := nextBy_eq_of_tightens kernel pid htightens hwithin hlimit
    intro error hresult
    rw [← hcalls]
    exact .next (hstep.trans step) (ih (hwithin.concat hlimit filter) error hresult)

/-- The first step of a reading is what it starts with. -/
theorem calls_readNext_isPrefix (pid : Pid) (limit : Option Nat) (earlier : List SeccompFilter)
    (replies : List Reply) :
    (readNext pid limit earlier replies).calls <+: (readFrom pid limit earlier replies).calls := by
  cases h : (readNext pid limit earlier replies).result with
  | error error =>
    rw [readFrom, Attempt.loop_of_error h]
    exact List.prefix_rfl
  | ok taken =>
    cases taken with
    | inl filters =>
      rw [readFrom_of_done h]
      exact List.prefix_rfl
    | inr longer =>
      rw [readFrom_of_next h, Exchange.calls_followedBy]
      exact List.prefix_append _ _

/-- The calls that are made with a limit can be made with every larger one, also where the reading
does not end then. -/
theorem Reading.begins (htightens : Tightens limit larger)
    (h : Reading kernel pid limit earlier calls result) (hwithin : Within limit earlier) :
    ∃ replies, calls <+: (readFrom pid larger earlier replies).calls := by
  induction h with
  | @failed earlier | @done earlier =>
    by_cases hlimit : limit = some earlier.length
    · rw [(nextBy_of_limit kernel pid hlimit).1]
      exact ⟨[], List.nil_prefix⟩
    · obtain ⟨hcalls, -⟩ := nextBy_eq_of_tightens kernel pid htightens hwithin hlimit
      obtain ⟨replies, hmade, -⟩ := exists_readNext kernel pid larger earlier []
      rw [← hcalls, ← hmade]
      exact ⟨replies, calls_readNext_isPrefix pid larger earlier replies⟩
  | @next earlier longer calls result step later ih =>
    obtain ⟨hlimit, filter, -, rfl⟩ := nextBy_goes_on step
    obtain ⟨hcalls, hstep⟩ := nextBy_eq_of_tightens kernel pid htightens hwithin hlimit
    obtain ⟨rest, hlater⟩ := ih (hwithin.concat hlimit filter)
    obtain ⟨replies, hmade, hresult, rfl⟩ := exists_readNext kernel pid larger earlier rest
    refine ⟨replies, ?_⟩
    rw [readFrom_of_next (hresult.trans (hstep.trans step)), Exchange.calls_followedBy, hmade,
      hcalls]
    exact (List.prefix_append_right_inj _).2 hlater

/-- With a limit the reading comes to an end. -/
theorem exists_reading {bound : Nat} (kernel : Request → Reply) (pid : Pid)
    {earlier : List SeccompFilter} (hbound : earlier.length ≤ bound) :
    ∃ calls result, Reading kernel pid (some bound) earlier calls result := by
  cases hstep : (nextBy kernel pid (some bound) earlier).result with
  | error error => exact ⟨_, _, .failed hstep⟩
  | ok taken =>
    cases taken with
    | inl filters => exact ⟨_, _, .done hstep⟩
    | inr longer =>
      obtain ⟨hlimit, filter, -, rfl⟩ := nextBy_goes_on hstep
      have hlt : earlier.length < bound := Nat.lt_of_le_of_ne hbound fun h => hlimit (h ▸ rfl)
      have hlonger : (earlier ++ [filter]).length ≤ bound := by
        rwa [List.length_append, List.length_singleton]
      obtain ⟨calls, result, hlater⟩ := exists_reading kernel pid hlonger
      exact ⟨_, _, .next hstep hlater⟩
termination_by bound - earlier.length
decreasing_by
  rw [List.length_append, List.length_singleton]
  omega

/-! ## Places that are reached -/

/-- The first filters of this kernel can all be read, as many as `count`. -/
def Readable (kernel : Request → Reply) (pid : Pid) (count : Nat) : Prop :=
  ∀ index < count, ∃ filter, (readBy kernel pid index).result = .ok filter

/-- The reading gets to the filter at `index` : the limit allows for it, and all filters before it
can be read. -/
def Reached (kernel : Request → Reply) (pid : Pid) (limit : Option Nat) (index : Nat) : Prop :=
  (∀ bound ∈ limit, index < bound) ∧ Readable kernel pid index

/-- These calls and this result come from filters that the reading gets to. -/
structure FromReached (kernel : Request → Reply) (pid : Pid) (limit : Option Nat)
    (calls : List Call) (result : Except Error α) : Prop where
  asked : ∀ call ∈ calls, ∃ index capacity,
    call.request = .seccompFilter pid index capacity ∧ Reached kernel pid limit index
  failed : ∀ error, result = .error error → ∃ index,
    (readBy kernel pid index).result = .error error ∧ Reached kernel pid limit index

theorem Readable.succ {count : Nat} {filter : SeccompFilter} (h : Readable kernel pid count)
    (hfilter : (readBy kernel pid count).result = .ok filter) :
    Readable kernel pid (count + 1) := by
  intro index hindex
  rcases Nat.lt_succ_iff_lt_or_eq.1 hindex with hindex | rfl
  · exact h index hindex
  · exact ⟨filter, hfilter⟩

theorem eq_error_of_extend {read : Except Error SeccompFilter} {error : Error}
    (h : extend earlier read = .error error) : read = .error error := by
  cases read with
  | ok => cases h
  | error cause =>
    cases cause with
    | noSuchFilter => cases h
    | _ => exact congrArg Except.error (Except.error.inj h)

/-- A step asks for the filter that follows, and nothing else can make it fail. -/
theorem fromReached_nextBy (hwithin : Within limit earlier)
    (hearlier : Readable kernel pid earlier.length) :
    FromReached kernel pid limit (nextBy kernel pid limit earlier).calls
      (nextBy kernel pid limit earlier).result := by
  by_cases hlimit : limit = some earlier.length
  · obtain ⟨hcalls, hresult⟩ := nextBy_of_limit kernel pid hlimit
    rw [hcalls, hresult]
    exact ⟨fun call hcall => absurd hcall List.not_mem_nil, fun _ h => nomatch h⟩
  · obtain ⟨hcalls, hresult⟩ := nextBy_of_not_limit kernel pid hlimit
    have hreached : Reached kernel pid limit earlier.length := ⟨hwithin.lt hlimit, hearlier⟩
    rw [hcalls, hresult]
    refine ⟨fun call hcall => ?_, fun error herror => ?_⟩
    · obtain ⟨capacity, hrequest⟩ := (reads_read pid earlier.length _).request hcall
      exact ⟨_, capacity, hrequest, hreached⟩
    · exact ⟨_, eq_error_of_extend herror, hreached⟩

theorem Reading.fromReached (h : Reading kernel pid limit earlier calls result)
    (hwithin : Within limit earlier) (hearlier : Readable kernel pid earlier.length) :
    FromReached kernel pid limit calls result := by
  induction h with
  | failed step =>
    have hstep := fromReached_nextBy hwithin hearlier
    refine ⟨hstep.asked, ?_⟩
    rintro _ ⟨⟩
    exact hstep.failed _ step
  | done step =>
    exact ⟨(fromReached_nextBy hwithin hearlier).asked, fun _ h => nomatch h⟩
  | @next earlier longer calls result step later ih =>
    obtain ⟨hlimit, filter, hfilter, rfl⟩ := nextBy_goes_on step
    have hlonger : Readable kernel pid (earlier ++ [filter]).length := by
      rw [List.length_append, List.length_singleton]
      exact hearlier.succ hfilter
    have hlater := ih (hwithin.concat hlimit filter) hlonger
    exact ⟨List.forall_mem_append.2 ⟨(fromReached_nextBy hwithin hearlier).asked, hlater.asked⟩,
      hlater.failed⟩

/-! ## Two readings of one chain -/

/-- A limit only cuts the reading short. Where the larger limit gives filters, the tighter one gives
the first of them, and an error that is found with the tighter one is found with the larger one too.
The calls that the tighter limit leads to are the first ones that the larger limit leads to, also
where the reading does not end with the larger one. What the kernel would reply for a filter beyond
the limit, or after one that could not be read, is never seen. Each limit leads to one outcome at
most, and a finite one always leads to an outcome. -/
theorem limit_only_truncates (kernel : Request → Reply) (pid : Pid)
    (htightens : Tightens limit larger) :
    (∀ calls filters, (readAll pid larger).Yields kernel calls (.ok filters) →
      ∃ fewer, (readAll pid limit).Yields kernel fewer
        (.ok (filters.take (limit.getD filters.length)))) ∧
    (∀ calls error, (readAll pid limit).Yields kernel calls (.error error) →
      (readAll pid larger).Yields kernel calls (.error error)) ∧
    (∀ fewer outcome, (readAll pid limit).Yields kernel fewer outcome →
      (∃ replies, fewer <+: (readAll pid larger replies).calls) ∧
      ∀ calls result, (readAll pid larger).Yields kernel calls result → fewer <+: calls) ∧
    (∀ calls result, (readAll pid limit).Yields kernel calls result →
      FromReached kernel pid limit calls result ∧
      ∀ others outcome, (readAll pid limit).Yields kernel others outcome →
        others = calls ∧ outcome = result) ∧
    (limit.isSome → ∃ calls result, (readAll pid limit).Yields kernel calls result) := by
  simp only [yields_readAll_iff]
  have hwithin : Within limit [] := fun bound _ => Nat.zero_le bound
  refine ⟨?first, ?sameError, ?fewerCalls, ?determined, ?ends⟩
  case first =>
    intro calls filters hlarger
    obtain ⟨fewer, outcome, hlimit, -, htake⟩ := hlarger.shortens htightens hwithin
    obtain rfl := htake filters rfl
    exact ⟨fewer, hlimit⟩
  case sameError => exact fun calls error hlimit => hlimit.loosen htightens hwithin error rfl
  case fewerCalls =>
    intro fewer outcome hlimit
    refine ⟨hlimit.begins htightens hwithin, fun calls result hlarger => ?_⟩
    obtain ⟨_, _, hshort, hprefix, -⟩ := hlarger.shortens htightens hwithin
    obtain ⟨rfl, -⟩ := hlimit.unique hshort
    exact hprefix
  case determined =>
    intro calls result hlimit
    have hnone : Readable kernel pid 0 := fun index hindex => absurd hindex index.not_lt_zero
    exact ⟨hlimit.fromReached hwithin hnone, fun others outcome => hlimit.unique⟩
  case ends =>
    intro hlimit
    obtain ⟨bound, rfl⟩ := Option.isSome_iff_exists.1 hlimit
    exact exists_reading kernel pid bound.zero_le

/-- The kernel refuses to tell of the third of a chain of filters. With a limit of one the first
filter is read as it is with a limit of two, and the refusal is met with a limit of three as it is
with none. -/
theorem refusal_unseen_behind_limit :
    let program : List Instruction := [⟨0x06, 0, 0, 0x7fff0000⟩]
    let kernel : Request → Reply
      | .seccompFilter _ 0 none => .ok { returned := some 1 }
      | .seccompFilter _ 0 (some _) => .ok { instructions := program }
      | .seccompFilter _ 1 _ => .ok {}
      | _ => .error .eperm
    let reads := fun limit => (readAll ⟨5⟩ limit).Yields kernel
    let two : List Call := [⟨.seccompFilter ⟨5⟩ 0 none, .ok { returned := some 1 }⟩,
      ⟨.seccompFilter ⟨5⟩ 0 (some 1), .ok { instructions := program }⟩,
      ⟨.seccompFilter ⟨5⟩ 1 none, .ok {}⟩, ⟨.seccompFilter ⟨5⟩ 1 (some 0), .ok {}⟩]
    let refused : List Call := two ++ [⟨.seccompFilter ⟨5⟩ 2 none, .error .eperm⟩]
    (Tightens (some 1) (some 2) ∧ reads (some 2) two (.ok [⟨0, program⟩, ⟨1, []⟩]) ∧
      ∃ fewer, reads (some 1) fewer (.ok [⟨0, program⟩]) ∧ fewer <+: two) ∧
    Tightens (some 3) none ∧ reads (some 3) refused (.error (.notPermitted ⟨5⟩ .eperm)) ∧
      reads none refused (.error (.notPermitted ⟨5⟩ .eperm)) := by
  intro program kernel reads two refused
  have htwo : reads (some 2) two (.ok [⟨0, program⟩, ⟨1, []⟩]) :=
    yields_readAll_iff.2 (.next rfl (.next rfl (.done rfl)))
  have hrefused : reads (some 3) refused (.error (.notPermitted ⟨5⟩ .eperm)) :=
    yields_readAll_iff.2 (.next rfl (.next rfl (.failed rfl)))
  have hless : Tightens (some 1) (some 2) := Nat.le_succ 1
  have hnone : Tightens (some 3) none := trivial
  obtain ⟨hfirst, -, hfewer, -⟩ := limit_only_truncates kernel ⟨5⟩ hless
  obtain ⟨-, hsame, -⟩ := limit_only_truncates kernel ⟨5⟩ hnone
  obtain ⟨fewer, hone⟩ := hfirst two _ htwo
  exact ⟨⟨hless, htwo, fewer, hone, (hfewer fewer _ hone).2 two _ htwo⟩, hnone, hrefused,
    hsame refused _ hrefused⟩

end SeccompFilter

end ProcTrace
