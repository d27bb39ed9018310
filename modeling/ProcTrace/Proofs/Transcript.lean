import ProcTrace.Tracee.Wait

/-!
# Transcripts

The calls of an exchange, each with its reply, are its transcript. Here is what the transcripts of
single requests, of sequences and of loops look like : `bind_cases` and `command_cases` split a
sequence and a request by success and failure, and `loop_induction` carries a property of a loop
from step to step.

A wait is a row of calls that are alike. All replies but the last are idle, as they tell of no
change, and the last one ends the wait (`exists_waits_nextChange`).
-/

namespace ProcTrace

variable {α β σ : Type}

/-! ## Results and errors -/

/-- Unlike an outcome, an optional value can be compared by evaluation. -/
theorem eq_ok_of_toOption {x : Except Error α} {a : α} (h : x.toOption = some a) : x = .ok a := by
  cases x with
  | error error => cases h
  | ok b =>
    obtain rfl : b = a := Option.some.inj h
    rfl

/-- The error number says that the tracee is gone. -/
def Errno.saysGone (errno : Errno) : Bool :=
  errno = .esrch || errno = .echild

theorem Error.traceeGone_ofErrno_eq (pid : Pid) (errno : Errno) :
    (Error.ofErrno pid errno).traceeGone = errno.saysGone := by
  rw [Bool.eq_iff_iff, Error.traceeGone_ofErrno]
  simp [Errno.saysGone]

/-! ## Requests, sequences and loops -/

namespace Attempt

/-- A sequence ends with its first part if that fails, and goes on with the replies left if not. -/
theorem bind_cases (x : Attempt α) (f : α → Attempt β) (replies : List Reply) :
    (∃ error, (x replies).result = .error error ∧
      (x >>= f) replies = (x replies).withResult (.error error)) ∨
    ∃ a, (x replies).result = .ok a ∧
      (x >>= f) replies = (x replies).followedBy (f a (x replies).rest) := by
  cases h : (x replies).result with
  | error error => exact Or.inl ⟨error, rfl, bind_of_error h⟩
  | ok a => exact Or.inr ⟨a, rfl, bind_of_ok h⟩

theorem askOr_cases (cause : Errno → Error) (request : Request) (replies : List Reply) :
    (∃ answer, (askOr cause request replies).calls = [⟨request, .ok answer⟩] ∧
      (askOr cause request replies).result = .ok answer) ∨
    ∃ errno, (askOr cause request replies).calls = [⟨request, .error errno⟩] ∧
      (askOr cause request replies).result = .error (cause errno) := by
  match replies with
  | [] => exact Or.inr ⟨request.lastErrno, rfl, rfl⟩
  | .ok answer :: rest => exact Or.inl ⟨answer, rfl, rfl⟩
  | .error errno :: rest => exact Or.inr ⟨errno, rfl, rfl⟩

/-- A command makes its request once, and fails as the reply says. -/
theorem command_cases (pid : Pid) (request : Request) (replies : List Reply) :
    (∃ answer, (command pid request replies).calls = [⟨request, .ok answer⟩] ∧
      (command pid request replies).result = .ok ()) ∨
    ∃ errno, (command pid request replies).calls = [⟨request, .error errno⟩] ∧
      (command pid request replies).result = .error (.ofErrno pid errno) := by
  rcases askOr_cases (Error.ofErrno pid) request replies with ⟨answer, hc, hr⟩ | ⟨errno, hc, hr⟩
  · exact Or.inl ⟨answer, hc, by simp [command, commandOr, hr, Except.map]⟩
  · exact Or.inr ⟨errno, hc, by simp [command, commandOr, hr, Except.map]⟩

/-- A command that is logged first. -/
theorem note_command_cases (record : Record) (pid : Pid) (request : Request)
    (replies : List Reply) :
    (∃ answer, ((note record >>= fun _ => command pid request) replies).calls =
        [⟨request, .ok answer⟩] ∧
      ((note record >>= fun _ => command pid request) replies).result = .ok ()) ∨
    ∃ errno, ((note record >>= fun _ => command pid request) replies).calls =
        [⟨request, .error errno⟩] ∧
      ((note record >>= fun _ => command pid request) replies).result =
        .error (.ofErrno pid errno) := by
  rw [bind_of_ok (x := note record) rfl]
  exact command_cases pid request replies

/-- A command that is logged first, with a value to give after it. -/
theorem note_command_pure_cases (record : Record) (pid : Pid) (request : Request) (b : β)
    (replies : List Reply) :
    let x : Attempt β := do
      note record
      command pid request
      pure b
    (∃ answer, (x replies).calls = [⟨request, .ok answer⟩] ∧ (x replies).result = .ok b) ∨
      ∃ errno, (x replies).calls = [⟨request, .error errno⟩] ∧
        (x replies).result = .error (.ofErrno pid errno) := by
  intro x
  have hx : x replies = (note record replies).followedBy
      ((command pid request >>= fun _ => pure b) replies) :=
    bind_of_ok (x := note record) rfl
  rcases command_cases pid request replies with ⟨answer, hc, hr⟩ | ⟨errno, hc, hr⟩
  · refine Or.inl ⟨answer, ?_, ?_⟩
    · rw [hx, bind_of_ok hr, Exchange.calls_followedBy, Exchange.calls_followedBy, hc]
      rfl
    · rw [hx, bind_of_ok hr]
      rfl
  · refine Or.inr ⟨errno, ?_, ?_⟩
    · rw [hx, bind_of_error hr, Exchange.calls_followedBy, Exchange.calls_withResult, hc]
      rfl
    · rw [hx, bind_of_error hr]
      rfl

/-- An attempt makes only requests with some property. -/
def Asks (p : Request → Prop) (x : Attempt α) : Prop :=
  ∀ replies, ∀ call ∈ (x replies).calls, p call.request

variable {p : Request → Prop}

theorem asks_pure (a : α) : Asks p (pure a : Attempt α) := by
  intro replies call hcall
  simp [pure_apply] at hcall

theorem asks_throw (error : Error) : Asks p (throw error : Attempt α) := by
  intro replies call hcall
  simp [throw_apply] at hcall

theorem asks_note (record : Record) : Asks p (note record) := by
  intro replies call hcall
  simp [note] at hcall

theorem asks_askOr (cause : Errno → Error) {request : Request} (h : p request) :
    Asks p (askOr cause request) := by
  intro replies call hcall
  rcases askOr_cases cause request replies with ⟨_, hc, _⟩ | ⟨_, hc, _⟩ <;>
  · rw [hc, List.mem_singleton] at hcall
    rw [hcall]
    exact h

theorem asks_command (pid : Pid) {request : Request} (h : p request) :
    Asks p (command pid request) :=
  asks_askOr (.ofErrno pid) h

theorem Asks.bind {x : Attempt α} {f : α → Attempt β} (hx : Asks p x)
    (hf : ∀ a, Asks p (f a)) : Asks p (x >>= f) := by
  intro replies call hcall
  rcases bind_cases x f replies with ⟨_, _, h⟩ | ⟨a, _, h⟩
  · rw [h] at hcall
    exact hx replies call hcall
  · rw [h, Exchange.calls_followedBy] at hcall
    rcases List.mem_append.1 hcall with hcall | hcall
    · exact hx replies call hcall
    · exact hf a _ call hcall

theorem Asks.mono {q : Request → Prop} {x : Attempt α} (hx : Asks p x) (h : ∀ r, p r → q r) :
    Asks q x := fun replies call hcall => h _ (hx replies call hcall)

/-- An attempt fails only with errors with some property. -/
def Fails (p : Error → Prop) (x : Attempt α) : Prop :=
  ∀ replies error, (x replies).result = .error error → p error

section

variable {p : Error → Prop}

theorem fails_pure (a : α) : Fails p (pure a : Attempt α) := by
  intro replies error he
  simp [pure_apply] at he

theorem fails_throw {error : Error} (h : p error) : Fails p (throw error : Attempt α) := by
  intro replies thrown he
  cases he
  exact h

theorem fails_note (record : Record) : Fails p (note record) := by
  intro replies error he
  simp [note] at he

theorem fails_askOr {cause : Errno → Error} (h : ∀ errno, p (cause errno)) (request : Request) :
    Fails p (askOr cause request) := by
  intro replies error he
  rcases askOr_cases cause request replies with ⟨_, _, hr⟩ | ⟨errno, _, hr⟩
  · cases hr.symm.trans he
  · cases hr.symm.trans he
    exact h errno

theorem Fails.bind {x : Attempt α} {f : α → Attempt β} (hx : Fails p x)
    (hf : ∀ a, Fails p (f a)) : Fails p (x >>= f) := by
  intro replies error he
  rcases bind_cases x f replies with ⟨failure, hr, h⟩ | ⟨a, _, h⟩
  · rw [h] at he
    cases he
    exact hx replies error hr
  · rw [h] at he
    exact hf a _ error he

end

/-- Induction along a loop. What holds of a last step, and is carried backwards over a step that
goes on, holds of the loop. -/
theorem loop_induction {step : σ → Attempt (α ⊕ σ)}
    {progress : ∀ state replies next, (step state replies).result = .ok (.inr next) →
      (step state replies).rest.length < replies.length}
    {motive : σ → List Reply → Exchange (Except Error α) → Prop}
    (failed : ∀ state replies error, (step state replies).result = .error error →
      motive state replies ((step state replies).withResult (.error error)))
    (done : ∀ state replies a, (step state replies).result = .ok (.inl a) →
      motive state replies ((step state replies).withResult (.ok a)))
    (next : ∀ state replies next, (step state replies).result = .ok (.inr next) →
      motive next (step state replies).rest (loop step progress next (step state replies).rest) →
      motive state replies ((step state replies).followedBy
        (loop step progress next (step state replies).rest)))
    (state : σ) (replies : List Reply) :
    motive state replies (loop step progress state replies) := by
  induction hn : replies.length using Nat.strongRecOn generalizing state replies with
  | ind n ih =>
    cases h : (step state replies).result with
    | error error =>
      rw [loop_of_error h]
      exact failed state replies error h
    | ok taken =>
      cases taken with
      | inl a =>
        rw [loop_of_done h]
        exact done state replies a h
      | inr after =>
        rw [loop_of_next h]
        have hlt := progress state replies after h
        exact next state replies after h (ih _ (hn ▸ hlt) after _ rfl)

/-- The calls of the first step of a loop are among its calls. -/
theorem mem_calls_loop {step : σ → Attempt (α ⊕ σ)}
    {progress : ∀ state replies next, (step state replies).result = .ok (.inr next) →
      (step state replies).rest.length < replies.length}
    {state : σ} {replies : List Reply} {call : Call} (h : call ∈ (step state replies).calls) :
    call ∈ (loop step progress state replies).calls := by
  match hresult : (step state replies).result with
  | .error error => exact loop_of_error hresult ▸ h
  | .ok (.inl a) => exact loop_of_done hresult ▸ h
  | .ok (.inr next) =>
    rw [loop_of_next hresult]
    exact List.mem_append_left _ h

/-- A loop asks only what its steps ask. -/
theorem Asks.loop {p : Request → Prop} {step : σ → Attempt (α ⊕ σ)}
    {progress : ∀ state replies next, (step state replies).result = .ok (.inr next) →
      (step state replies).rest.length < replies.length}
    (h : ∀ state, Asks p (step state)) (state : σ) : Asks p (loop step progress state) := by
  intro replies
  refine loop_induction (motive := fun _ _ x => ∀ call ∈ x.calls, p call.request)
    ?failed ?done ?next state replies
  case failed => exact fun state replies _ _ => h state replies
  case done => exact fun state replies _ _ => h state replies
  case next =>
    intro state replies _ _ ih call hcall
    rcases List.mem_append.1 hcall with hcall | hcall
    · exact h state replies call hcall
    · exact ih call hcall

/-- A loop fails only as its steps do. -/
theorem Fails.loop {p : Error → Prop} {step : σ → Attempt (α ⊕ σ)}
    {progress : ∀ state replies next, (step state replies).result = .ok (.inr next) →
      (step state replies).rest.length < replies.length}
    (h : ∀ state, Fails p (step state)) (state : σ) : Fails p (loop step progress state) := by
  intro replies
  refine loop_induction (motive := fun _ _ x => ∀ error, x.result = .error error → p error)
    ?failed ?done ?next state replies
  case failed =>
    intro state replies failure hr error he
    cases he
    exact h state replies failure hr
  case done =>
    intro state replies a _ error he
    cases he
  case next => exact fun _ _ _ _ ih => ih

end Attempt

/-- A request that is made until a reply is accepted : the replies before were not. -/
theorem Tracer.exists_calls_askUntil (request : Request)
    (judge : Reply → Except Errno α ⊕ List Record)
    (accepts : judge (.error request.lastErrno) = .inl (.error request.lastErrno))
    (replies : List Reply) :
    ∃ passed reply,
      (askUntil request judge accepts replies).calls = passed ++ [⟨request, reply⟩] ∧
      (∀ call ∈ passed, call.request = request ∧ ∃ records, judge call.reply = .inr records) ∧
      judge reply = .inl (askUntil request judge accepts replies).result := by
  induction replies with
  | nil =>
    rw [askUntil_nil]
    exact ⟨[], _, rfl, by simp, accepts⟩
  | cons reply rest ih =>
    cases h : judge reply with
    | inl accepted =>
      rw [askUntil_of_accepted h]
      exact ⟨[], reply, rfl, by simp, h⟩
    | inr records =>
      obtain ⟨passed, last, hcalls, hpassed, haccepted⟩ := ih
      rw [askUntil_of_passed h, Exchange.calls_followedBy, hcalls]
      refine ⟨⟨request, reply⟩ :: passed, last, rfl, ?_, haccepted⟩
      intro call hcall
      rcases List.mem_cons.1 hcall with rfl | hcall
      · exact ⟨rfl, records, h⟩
      · exact hpassed call hcall

/-! ## Waits -/

/-- The change is a stop. -/
def Change.isStop : Change → Bool
  | stopped _ => true
  | ended _ => false

/-- The change of the tracee that a call tells of, none if it is no wait. -/
def Call.change? (call : Call) : Option Change :=
  match call.request with
  | .waitpid pid =>
    match call.reply.waitStatus pid with
    | .ok status => status.change?.map Prod.snd
    | .error _ => none
  | _ => none

/-- The reply to a wait for `pid` tells of no change, and the wait is repeated. -/
def Reply.Idle (pid : Pid) (reply : Reply) : Prop :=
  match reply.waitStatus pid with
  | .ok status => status.change? = none
  | .error errno => errno = .eintr

/-- The reply ends a wait for `pid` with this result. -/
inductive Reply.Ends (pid : Pid) (reply : Reply) : Except Errno (Pid × Change) → Prop
  | changed {reporter : Pid} {change : Change}
      (status : reply.waitStatus pid = .ok (.changed reporter change)) :
      Ends pid reply (.ok (reporter, change))
  | failed {errno : Errno} (status : reply.waitStatus pid = .error errno)
      (uninterrupted : errno ≠ .eintr) : Ends pid reply (.error errno)

/-- The calls are one wait for `pid`, which `reply` ends. -/
def Waits (pid : Pid) (calls : List Call) (reply : Reply) : Prop :=
  ∃ idle, calls = idle ++ [⟨.waitpid pid, reply⟩] ∧
    ∀ call ∈ idle, call.request = .waitpid pid ∧ call.reply.Idle pid

theorem idle_of_judgeWait {pid : Pid} {passedOver : WaitStatus → List Record} {reply : Reply}
    {records : List Record} (h : judgeWait pid passedOver reply = .inr records) :
    reply.Idle pid := by
  unfold judgeWait at h
  unfold Reply.Idle
  split at h
  next status hs =>
    split at h
    next => simp at h
    next hnone => simpa [hs] using hnone
  next errno hs =>
    split at h
    next he => simpa [hs] using he
    next => simp at h

theorem ends_of_judgeWait {pid : Pid} {passedOver : WaitStatus → List Record} {reply : Reply}
    {result : Except Errno (Pid × Change)}
    (h : judgeWait pid passedOver reply = .inl result) : reply.Ends pid result := by
  unfold judgeWait at h
  split at h
  next status hs =>
    split at h
    next change hchange =>
      cases status with
      | changed reporter change =>
        cases hchange
        cases h
        exact .changed hs
      | continued => cases hchange
      | stillAlive => cases hchange
    next => simp at h
  next errno hs =>
    split at h
    next => simp at h
    next he =>
      cases h
      exact .failed hs he

theorem exists_judgeWait_of_idle {pid : Pid} (passedOver : WaitStatus → List Record) {reply : Reply}
    (h : reply.Idle pid) : ∃ records, judgeWait pid passedOver reply = .inr records := by
  unfold Reply.Idle at h
  unfold judgeWait
  cases hstatus : reply.waitStatus pid with
  | ok status =>
    rw [hstatus] at h
    have hnone : status.change? = none := h
    exact ⟨passedOver status, by simp only [hnone]⟩
  | error errno =>
    rw [hstatus] at h
    exact ⟨[], if_pos h⟩

theorem judgeWait_of_ends {pid : Pid} (passedOver : WaitStatus → List Record) {reply : Reply}
    {result : Except Errno (Pid × Change)} (h : reply.Ends pid result) :
    judgeWait pid passedOver reply = .inl result := by
  unfold judgeWait
  cases h with
  | changed status => simp [status, WaitStatus.change?]
  | failed status uninterrupted => simp [status, uninterrupted]

/-- The calls of a wait for `pid` that takes these replies. -/
def waitCalls (pid : Pid) (replies : List Reply) : List Call :=
  replies.map (Call.mk (.waitpid pid))

/-- A wait passes over idle replies, and takes no more than the reply that ends it. -/
theorem nextChange_append {pid : Pid} (passedOver : WaitStatus → List Record) {idle : List Reply}
    (hidle : ∀ reply ∈ idle, reply.Idle pid) {last : Reply} {result : Except Errno (Pid × Change)}
    (hlast : last.Ends pid result) (rest : List Reply) :
    let waited := nextChange pid passedOver (idle ++ last :: rest)
    waited.calls = waitCalls pid (idle ++ [last]) ∧ waited.result = result ∧
      waited.rest = rest := by
  induction idle with
  | nil =>
    rw [nextChange, List.nil_append, Tracer.askUntil_of_accepted (judgeWait_of_ends _ hlast)]
    exact ⟨rfl, rfl, rfl⟩
  | cons reply idle ih =>
    obtain ⟨records, hjudge⟩ :=
      exists_judgeWait_of_idle passedOver (hidle reply (List.mem_cons_self ..))
    obtain ⟨hcalls, hresult, hrest⟩ := ih fun r hr => hidle r (List.mem_cons_of_mem _ hr)
    rw [nextChange, List.cons_append, Tracer.askUntil_of_passed hjudge]
    exact ⟨congrArg (Call.mk (.waitpid pid) reply :: ·) hcalls, hresult, hrest⟩

/-- A wait fails with the error number of its reply, or as invalid. -/
theorem Reply.eq_error_of_waitStatus {pid : Pid} {reply : Reply} {errno : Errno}
    (h : reply.waitStatus pid = .error errno) : reply = .error errno ∨ errno = .einval := by
  cases reply with
  | error got =>
    obtain rfl : got = errno := Except.error.inj h
    exact Or.inl rfl
  | ok answer =>
    refine Or.inr ?_
    simp only [Reply.waitStatus] at h
    split at h
    next => cases h
    next =>
      split at h
      next => cases h
      next => exact (Except.error.inj h).symm

/-- A wait repeats its request over idle replies until one ends it. -/
theorem exists_waits_nextChange (pid : Pid) (passedOver : WaitStatus → List Record)
    (replies : List Reply) :
    ∃ reply, Waits pid (nextChange pid passedOver replies).calls reply ∧
      reply.Ends pid (nextChange pid passedOver replies).result := by
  obtain ⟨passed, reply, hcalls, hpassed, hend⟩ :=
    Tracer.exists_calls_askUntil (.waitpid pid) (judgeWait pid passedOver)
      (judgeWait_lastErrno pid _) replies
  refine ⟨reply, ⟨passed, hcalls, fun call hcall => ?_⟩, ends_of_judgeWait hend⟩
  obtain ⟨hrequest, records, hjudge⟩ := hpassed call hcall
  exact ⟨hrequest, idle_of_judgeWait hjudge⟩

/-- Every call of a wait asks for the same process. -/
theorem Waits.request {pid : Pid} {calls : List Call} {reply : Reply} (h : Waits pid calls reply)
    {call : Call} (hcall : call ∈ calls) : call.request = .waitpid pid := by
  obtain ⟨idle, rfl, hidle⟩ := h
  rcases List.mem_append.1 hcall with hcall | hcall
  · exact (hidle call hcall).1
  · rw [List.mem_singleton.1 hcall]

/-- A wait asks at least once. -/
theorem Waits.exists_cons {pid : Pid} {calls : List Call} {reply : Reply}
    (h : Waits pid calls reply) : ∃ first rest, calls = ⟨.waitpid pid, first⟩ :: rest := by
  obtain ⟨idle, rfl, hidle⟩ := h
  cases idle with
  | nil => exact ⟨reply, [], rfl⟩
  | cons call idle =>
    obtain ⟨request, first⟩ := call
    obtain rfl : request = .waitpid pid := (hidle _ (List.mem_cons_self ..)).1
    exact ⟨first, _, rfl⟩

/-- Only the last call of a wait can tell of a change. -/
theorem Waits.eq_of_not_idle {pid : Pid} {calls : List Call} {reply : Reply}
    (h : Waits pid calls reply) {call : Call} (hcall : call ∈ calls)
    (hnot : ¬call.reply.Idle pid) : call.reply = reply := by
  obtain ⟨idle, rfl, hidle⟩ := h
  rcases List.mem_append.1 hcall with hcall | hcall
  · exact absurd (hidle call hcall).2 hnot
  · rw [List.mem_singleton.1 hcall]

theorem Reply.Ends.not_idle {pid : Pid} {reply : Reply} {result : Except Errno (Pid × Change)}
    (h : reply.Ends pid result) : ¬reply.Idle pid := by
  unfold Reply.Idle
  cases h with
  | changed status => simp [status, WaitStatus.change?]
  | failed status uninterrupted => simpa [status] using uninterrupted

/-- A reply ends a wait in one way. -/
theorem Reply.Ends.unique {pid : Pid} {reply : Reply} {result other : Except Errno (Pid × Change)}
    (h : reply.Ends pid result) (h' : reply.Ends pid other) : result = other := by
  cases h with
  | changed status =>
    cases h' with
    | changed status' =>
      obtain ⟨rfl, rfl⟩ := WaitStatus.changed.inj (Except.ok.inj (status.symm.trans status'))
      rfl
    | failed status' => cases status.symm.trans status'
  | failed status =>
    cases h' with
    | changed status' => cases status.symm.trans status'
    | failed status' =>
      obtain rfl := Except.error.inj (status.symm.trans status')
      rfl

theorem change?_of_idle {pid : Pid} {call : Call} (hrequest : call.request = .waitpid pid)
    (hidle : call.reply.Idle pid) : call.change? = none := by
  unfold Reply.Idle at hidle
  simp only [Call.change?, hrequest]
  split
  next status hs => simpa [hs] using hidle
  next => rfl

theorem Reply.Ends.change?_eq {pid reporter : Pid} {reply : Reply} {change : Change}
    (h : reply.Ends pid (.ok (reporter, change))) :
    Call.change? ⟨.waitpid pid, reply⟩ = some change := by
  cases h with
  | changed status => simp [Call.change?, status, WaitStatus.change?]

theorem Reply.Ends.change?_eq_none {pid : Pid} {reply : Reply} {errno : Errno}
    (h : reply.Ends pid (.error errno)) : Call.change? ⟨.waitpid pid, reply⟩ = none := by
  cases h with
  | failed status => simp [Call.change?, status]

theorem change?_eq_none {call : Call} (h : ∀ pid, call.request ≠ .waitpid pid) :
    call.change? = none := by
  unfold Call.change?
  split
  next pid hrequest => exact (h pid hrequest).elim
  next => rfl

/-- A call of a wait tells of no change, or of the one that ends the wait. -/
theorem Waits.change?_of_mem {pid : Pid} {calls : List Call} {reply : Reply}
    (h : Waits pid calls reply) {call : Call} (hcall : call ∈ calls) :
    call.change? = none ∨ call.change? = Call.change? ⟨.waitpid pid, reply⟩ := by
  have hrequest := h.request hcall
  by_cases hidle : call.reply.Idle pid
  · exact Or.inl (change?_of_idle hrequest hidle)
  · obtain rfl := h.eq_of_not_idle hcall hidle
    rw [← hrequest]
    exact Or.inr rfl

end ProcTrace
