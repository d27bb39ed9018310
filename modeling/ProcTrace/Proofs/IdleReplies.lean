import ProcTrace.Proofs.Inherited
import ProcTrace.Proofs.Transcript
import ProcTrace.Session.Lifetime

/-!
# Replies that tell of nothing

A wait passes over the replies that tell of no change. So it makes no difference how many of them
there are : where a script of replies is lengthened by some of them just before a reply that a wait
takes, the waits for them are all that is added (`Widened`).

A tracer is `Patient` if that is so wherever it waits, and if what it does depends on nothing but
the replies that it takes. Sequences of patient tracers are patient, and so are loops, as a loop is
a sequence of its steps as long as the replies last (`loop_eq_unrolled`). All that waits is made up
of such parts (`waits_ignore_uneventful_replies`).
-/

namespace ProcTrace

variable {α β σ : Type}

/-! ## Waits that are added -/

/-- The calls with one wait for each of the replies `idle`, made before the call at `place`. -/
def withWaits (pid : Pid) (place : Nat) (idle : List Reply) (calls : List Call) : List Call :=
  calls.take place ++ waitCalls pid idle ++ calls.drop place

/-- The call at `place` is a wait for `pid`. As every call takes one reply, it is the one that takes
the reply at that place, or that finds none there. -/
def WaitAt (pid : Pid) (place : Nat) (calls : List Call) : Prop :=
  calls[place]?.map Call.request = some (.waitpid pid)

/-- The second exchange is the first one with waits for idle replies before the call at `place`. -/
structure Widened (pid : Pid) (place : Nat) (idle : List Reply) (x y : Exchange α) : Prop where
  result : y.result = x.result
  rest : y.rest = x.rest
  calls : y.calls = withWaits pid place idle x.calls

variable {pid : Pid} {place : Nat} {idle : List Reply}

/-- Waits added in the first of two parts. -/
theorem withWaits_append_left {calls : List Call} (h : place ≤ calls.length) (more : List Call) :
    withWaits pid place idle (calls ++ more) = withWaits pid place idle calls ++ more := by
  rw [withWaits, List.take_append_of_le_length h, List.drop_append_of_le_length h, withWaits,
    List.append_assoc _ _ more]

/-- Waits added in the second of two parts. -/
theorem withWaits_append_right (calls more : List Call) :
    withWaits pid (calls.length + place) idle (calls ++ more) =
      calls ++ withWaits pid place idle more := by
  simp only [withWaits, List.take_length_add_append, List.drop_length_add_append,
    List.append_assoc]

theorem waitAt_append_left {calls : List Call} (h : place < calls.length) (more : List Call) :
    WaitAt pid place (calls ++ more) ↔ WaitAt pid place calls := by
  rw [WaitAt, List.getElem?_append_left h, WaitAt]

theorem waitAt_append_right (calls more : List Call) :
    WaitAt pid (calls.length + place) (calls ++ more) ↔ WaitAt pid place more := by
  rw [WaitAt, List.getElem?_append_right (Nat.le_add_right _ _), Nat.add_sub_cancel_left, WaitAt]

theorem WaitAt.lt {calls : List Call} (h : WaitAt pid place calls) : place < calls.length := by
  refine Nat.lt_of_not_le fun hle => ?_
  rw [WaitAt, List.getElem?_eq_none hle] at h
  cases h

namespace Widened

variable {x x' : Exchange α} {y y' : Exchange β}

/-- If the waits are added in the first exchange, the second one goes on as before. -/
theorem followedBy_left (h : Widened pid place idle x x') (hplace : place ≤ x.calls.length)
    (y : Exchange β) : Widened pid place idle (x.followedBy y) (x'.followedBy y) := by
  refine ⟨rfl, rfl, ?_⟩
  rw [Exchange.calls_followedBy, Exchange.calls_followedBy, withWaits_append_left hplace, h.calls]

/-- If they are added in the second exchange, the first one makes the same calls as before. -/
theorem followedBy_right {later : Nat} (h : Widened pid later idle y y')
    (hcalls : x'.calls = x.calls) (hplace : place = x.calls.length + later) :
    Widened pid place idle (x.followedBy y) (x'.followedBy y') := by
  subst hplace
  refine ⟨h.result, h.rest, ?_⟩
  rw [Exchange.calls_followedBy, Exchange.calls_followedBy, withWaits_append_right, h.calls, hcalls]

end Widened

/-! ## Patient tracers -/

/-- A list with enough entries begins with as many as wanted. -/
theorem exists_append_of_le_length {count : Nat} {entries : List α} (h : count ≤ entries.length) :
    ∃ first second, entries = first ++ second ∧ count = first.length :=
  ⟨entries.take count, entries.drop count, (List.take_append_drop count entries).symm,
    (List.length_take_of_le h).symm⟩

namespace Tracer

/-- It makes no difference to the tracer how often a wait tells of nothing. -/
structure Patient (pid : Pid) (x : Tracer α) : Prop where
  /-- What is done depends only on the replies that are taken. -/
  determined : ∀ taken rest other, (x (taken ++ rest)).calls.length = taken.length →
    x (taken ++ other) = { x (taken ++ rest) with rest := other }
  /-- Idle replies in front of one that a wait takes add no more than the waits for them. -/
  widened : ∀ before idle after, (∀ reply ∈ idle, reply.Idle pid) →
    WaitAt pid before.length (x (before ++ after)).calls →
    Widened pid before.length idle (x (before ++ after)) (x (before ++ (idle ++ after)))

/-- A patient tracer that takes as many replies as it makes calls leaves the others. -/
theorem Patient.rest_eq {x : Tracer α} (hx : x.Patient pid) {taken rest : List Reply}
    (h : (x (taken ++ rest)).calls.length = taken.length) : (x (taken ++ rest)).rest = rest :=
  congrArg Exchange.rest (hx.determined taken rest rest h)

/-- What makes no request is patient. -/
theorem patient_of_silent {x : Tracer α} {a : α} {log : List Record}
    (h : ∀ replies, x replies = ⟨a, [], log, replies⟩) : x.Patient pid where
  determined taken rest other hlength := by
    rw [h] at hlength
    obtain rfl := List.length_eq_zero_iff.1 hlength.symm
    rw [h, h]
    rfl
  widened before idle after hidle hwait := by
    rw [h] at hwait
    cases hwait

theorem patient_pure (a : α) : Patient pid (pure a : Tracer α) :=
  patient_of_silent fun _ => rfl

theorem patient_note (record : Record) : Patient pid (note record) :=
  patient_of_silent fun _ => rfl

theorem exists_calls_ask (request : Request) (replies : List Reply) :
    ∃ reply, (ask request replies).calls = [⟨request, reply⟩] := by
  cases replies with
  | nil => exact ⟨_, rfl⟩
  | cons reply rest => exact ⟨reply, rfl⟩

/-- A request that is no wait is patient. -/
theorem patient_ask (request : Request) (h : request ≠ .waitpid pid) :
    Patient pid (ask request) where
  determined taken rest other hlength := by
    obtain ⟨_, hcalls⟩ := exists_calls_ask request (taken ++ rest)
    rw [hcalls] at hlength
    obtain ⟨reply, rfl⟩ := List.length_eq_one_iff.1 hlength.symm
    rfl
  widened before idle after hidle hwait := by
    obtain ⟨reply, hcalls⟩ := exists_calls_ask request (before ++ after)
    rw [hcalls] at hwait
    have hfirst : before.length = 0 := Nat.lt_one_iff.1 hwait.lt
    rw [hfirst] at hwait
    exact absurd (Option.some.inj hwait) h

/-- A wait takes idle replies one by one and goes on as if they had not been there. -/
theorem widened_nextChange (passedOver : WaitStatus → List Record)
    (hidle : ∀ reply ∈ idle, reply.Idle pid) (after : List Reply) :
    Widened pid 0 idle (nextChange pid passedOver after)
      (nextChange pid passedOver (idle ++ after)) := by
  induction idle with
  | nil => exact ⟨rfl, rfl, rfl⟩
  | cons reply idle ih =>
    obtain ⟨hreply, hidle⟩ := List.forall_mem_cons.1 hidle
    obtain ⟨records, hjudge⟩ := exists_judgeWait_of_idle passedOver hreply
    obtain ⟨hresult, hrest, hcalls⟩ := ih hidle
    simp only [nextChange, List.cons_append, askUntil, hjudge] at hresult hrest hcalls ⊢
    exact ⟨hresult, hrest, congrArg (Call.mk (.waitpid pid) reply :: ·) hcalls⟩

/-- A wait is patient. -/
theorem patient_nextChange (passedOver : WaitStatus → List Record) :
    Patient pid (nextChange pid passedOver) where
  determined taken rest other hlength := by
    induction taken with
    | nil =>
      refine absurd hlength ?_
      cases rest with
      | nil => simp [nextChange, askUntil]
      | cons reply rest =>
        cases h : judgeWait pid passedOver reply <;> simp [nextChange, askUntil, h]
    | cons reply taken ih =>
      simp only [nextChange, List.cons_append, askUntil] at hlength ih ⊢
      cases h : judgeWait pid passedOver reply with
      | inl accepted =>
        rw [h] at hlength
        obtain rfl := List.length_eq_zero_iff.1 (Nat.succ.inj hlength).symm
        rfl
      | inr records =>
        rw [h] at hlength
        simp only [ih (Nat.succ.inj hlength)]
        rfl
  widened before idle after hidle hwait := by
    induction before with
    | nil => exact widened_nextChange passedOver hidle after
    | cons reply before ih =>
      simp only [nextChange, List.cons_append, askUntil] at hwait ih ⊢
      cases h : judgeWait pid passedOver reply with
      | inl accepted =>
        rw [h] at hwait
        exact absurd (Nat.lt_of_succ_lt_succ hwait.lt) (Nat.not_lt_zero _)
      | inr records =>
        rw [h] at hwait
        have hplace : (reply :: before).length = 1 + before.length := Nat.add_comm _ _
        rw [hplace] at hwait
        exact .followedBy_right (ih ((waitAt_append_right [_] _).1 hwait)) rfl hplace

/-- A sequence of patient tracers is patient. -/
theorem Patient.bind {x : Tracer α} {f : α → Tracer β} (hx : x.Patient pid)
    (hf : ∀ a, (f a).Patient pid) : (x >>= f).Patient pid where
  determined taken rest other hlength := by
    -- The first part takes as many of the replies as it makes calls, and leaves the others.
    rw [bind_apply, Exchange.calls_followedBy, List.length_append] at hlength
    obtain ⟨first, second, rfl, hfirst⟩ := exists_append_of_le_length (Nat.le.intro hlength)
    simp only [List.append_assoc, List.length_append] at hlength hfirst ⊢
    have hrest := hx.rest_eq hfirst
    rw [hfirst, hrest] at hlength
    rw [bind_apply, bind_apply, hx.determined first (second ++ rest) (second ++ other) hfirst,
      hrest]
    dsimp only
    rw [(hf _).determined second rest other (Nat.add_left_cancel hlength)]
    rfl
  widened before idle after hidle hwait := by
    rw [bind_apply] at hwait
    -- The wait is a call of the first part, or the first part has ended before it.
    rcases Nat.lt_or_ge before.length (x (before ++ after)).calls.length with hlt | hle
    · have hx := hx.widened before idle after hidle ((waitAt_append_left hlt _).1 hwait)
      rw [bind_apply, bind_apply, hx.result, hx.rest]
      exact hx.followedBy_left (Nat.le_of_lt hlt) _
    · obtain ⟨first, second, rfl, hfirst⟩ := exists_append_of_le_length hle
      simp only [List.append_assoc, List.length_append] at hwait hfirst ⊢
      have hrest := hx.rest_eq hfirst
      rw [← hfirst, Exchange.calls_followedBy, waitAt_append_right, hrest] at hwait
      rw [bind_apply, bind_apply,
        hx.determined first (second ++ after) (second ++ (idle ++ after)) hfirst, hrest, ← hfirst]
      exact ((hf _).widened second idle after hidle hwait).followedBy_right rfl rfl

theorem inherited_patient : Inherited fun _ => Patient pid where
  pure := patient_pure
  note _ := patient_note _
  bind := Patient.bind

/-- A value made from the result of a patient tracer. -/
theorem Patient.map {x : Tracer α} (hx : x.Patient pid) (f : α → β) :
    Patient pid fun replies => (x replies).withResult (f (x replies).result) := by
  have hmap : (fun replies => (x replies).withResult (f (x replies).result)) = f <$> x :=
    funext fun replies => (map_apply f x replies).symm
  rw [hmap, ← bind_pure_comp]
  exact hx.bind fun a => patient_pure (f a)

/-- A tracer is patient if it is like a patient one on all scripts up to any length. -/
theorem patient_of_bounded {x : Tracer α}
    (h : ∀ bound, ∃ y : Tracer α, y.Patient pid ∧
      ∀ replies, replies.length < bound → x replies = y replies) : x.Patient pid where
  determined taken rest other hlength := by
    obtain ⟨y, hy, heq⟩ := h ((taken ++ rest).length + (taken ++ other).length + 1)
    rw [heq (taken ++ rest) (by omega)] at hlength ⊢
    rw [heq (taken ++ other) (by omega)]
    exact hy.determined taken rest other hlength
  widened before idle after hidle hwait := by
    obtain ⟨y, hy, heq⟩ := h ((before ++ after).length + (before ++ (idle ++ after)).length + 1)
    rw [heq (before ++ after) (by omega)] at hwait ⊢
    rw [heq (before ++ (idle ++ after)) (by omega)]
    exact hy.widened before idle after hidle hwait

end Tracer

namespace Attempt

/-- It makes no difference to the attempt how often a wait tells of nothing. -/
abbrev Patient (pid : Pid) (x : Attempt α) : Prop :=
  Tracer.Patient pid x.run

theorem patient_pure (a : α) : Patient pid (pure a : Attempt α) :=
  Tracer.patient_of_silent fun _ => rfl

theorem patient_throw (error : Error) : Patient pid (throw error : Attempt α) :=
  Tracer.patient_of_silent fun _ => rfl

theorem patient_note (record : Record) : Patient pid (note record) :=
  Tracer.patient_of_silent fun _ => rfl

theorem patient_ask (request : Request) (h : request ≠ .waitpid pid) :
    Patient pid (ask pid request) :=
  (Tracer.patient_ask request h).map (Except.mapError (Error.ofErrno pid))

theorem patient_command (request : Request) (h : request ≠ .waitpid pid) :
    Patient pid (command pid request) :=
  (patient_ask request h).map (Except.map fun _ => ())

theorem Patient.bind {x : Attempt α} {f : α → Attempt β} (hx : x.Patient pid)
    (hf : ∀ a, (f a).Patient pid) : (x >>= f).Patient pid := by
  refine Tracer.Patient.bind hx fun outcome => ?_
  cases outcome with
  | ok a => exact hf a
  | error error => exact patient_throw error

/-- The first steps of a loop, as many as `count`. -/
def unrolled (step : σ → Attempt (α ⊕ σ)) : Nat → σ → Attempt α
  | 0, _ => throw (.internal "more steps than allowed for")
  | count + 1, state => do
    match ← step state with
    | .inl a => pure a
    | .inr next => unrolled step count next

/-- A loop is the sequence of its first steps, if there are as many as replies and one more. -/
theorem loop_eq_unrolled {step : σ → Attempt (α ⊕ σ)}
    {progress : ∀ state replies next, (step state replies).result = .ok (.inr next) →
      (step state replies).rest.length < replies.length}
    {count : Nat} {state : σ} {replies : List Reply} (h : replies.length < count) :
    loop step progress state replies = unrolled step count state replies := by
  induction count generalizing state replies with
  | zero => exact absurd h (Nat.not_lt_zero _)
  | succ count ih =>
    cases hr : (step state replies).result with
    | error error => rw [loop_of_error hr, unrolled, bind_of_error hr]
    | ok taken =>
      rw [unrolled, bind_of_ok hr]
      cases taken with
      | inl a =>
        rw [loop_of_done hr]
        simp [Exchange.followedBy, Exchange.withResult, pure_apply]
      | inr next =>
        rw [loop_of_next hr, ih (Nat.lt_of_lt_of_le (progress state replies next hr)
          (Nat.le_of_lt_succ h))]

/-- A loop of patient steps is patient, as it is a sequence of them on every script. -/
theorem Patient.loop {step : σ → Attempt (α ⊕ σ)}
    {progress : ∀ state replies next, (step state replies).result = .ok (.inr next) →
      (step state replies).rest.length < replies.length}
    (h : ∀ state, (step state).Patient pid) (state : σ) :
    Patient pid (loop step progress state) := by
  have hunrolled (count : Nat) : ∀ state, Patient pid (unrolled step count state) := by
    induction count with
    | zero => exact fun _ => patient_throw _
    | succ count ih =>
      intro state
      refine (h state).bind fun taken => ?_
      cases taken with
      | inl a => exact patient_pure a
      | inr next => exact ih next
  exact Tracer.patient_of_bounded fun bound =>
    ⟨unrolled step bound state, hunrolled bound state, fun _ => loop_eq_unrolled⟩

end Attempt

/-! ## All that waits -/

section

variable (pid : Pid)

/-- A wait for a stop is patient, whatever the change it ends with turns out to mean. -/
theorem patient_nextStop : Attempt.Patient pid (nextStop pid) := by
  have hmeans (change : Except Errno (Pid × Change)) :
      Attempt.Patient pid (stopOfChange pid change) := by
    match change with
    | .ok (_, .stopped _) => exact Attempt.patient_pure _
    | .ok (_, .ended _) => exact (Attempt.patient_note _).bind fun _ => Attempt.patient_throw _
    | .error _ => exact Attempt.patient_throw _
  exact (Tracer.patient_nextChange _).bind hmeans

theorem inherited_patient : Attempt.Inherited pid fun _ => Attempt.Patient pid where
  pure := Attempt.patient_pure
  throw := Attempt.patient_throw
  note _ := Attempt.patient_note _
  ask h := Attempt.patient_ask _ (Request.ne_waitpid h pid)
  command h := Attempt.patient_command _ (Request.ne_waitpid h pid)
  nextStop := patient_nextStop pid
  bind := Attempt.Patient.bind
  loop := Attempt.Patient.loop

theorem patient_stopsGroup (signal : Signal) : Attempt.Patient pid (stopsGroup pid signal) := by
  unfold stopsGroup
  split
  · exact (Tracer.patient_ask (.signalInfo pid) nofun).map (groupStopOfReply pid)
  · exact Attempt.patient_pure false

end

namespace Session

variable (s : Session)

theorem patient_interpret (change : Change) : Attempt.Patient s.pid (s.interpret change) :=
  (inherited_patient s.pid).interpret (patient_stopsGroup s.pid) change

/-- A wait of a session is patient in every state. -/
theorem patient_wait : Tracer.Patient s.pid s.wait :=
  Tracer.inherited_patient.wait (inherited_patient s.pid).reachAttachStop
    (Tracer.patient_nextChange _) s.patient_interpret

theorem patient_detachDropped (silent : Error → Bool) {x : Attempt Unit}
    (hx : x.Patient s.pid) : Tracer.Patient s.pid (s.detachDropped silent x) := by
  refine Tracer.Patient.bind hx fun outcome => ?_
  cases outcome with
  | ok u => exact Tracer.patient_pure _
  | error error =>
    dsimp only
    split
    · exact Tracer.patient_pure _
    · exact Tracer.patient_note _

/-- So is the dropping of a session, which waits only while it is attaching. -/
theorem patient_drop : Tracer.Patient s.pid s.drop := by
  unfold drop
  split
  · exact s.patient_detachDropped _ (inherited_patient s.pid).detach
  · exact s.patient_detachDropped _
      ((inherited_patient s.pid).reachAttachStop.bind fun _ => (inherited_patient s.pid).detach)
  · exact Tracer.patient_note _
  · exact Tracer.patient_pure _
  · exact Tracer.patient_pure _

end Session

/-! ## Uneventful replies -/

/-- The reply to a wait for `pid` tells that the wait was interrupted, that there is nothing to
report, or that the tracee was continued. -/
inductive Reply.Uneventful (pid : Pid) : Reply → Prop
  | interrupted : Uneventful pid (.error .eintr)
  | nothing {answer : Answer} (zero : (answer.waited pid).number = 0) : Uneventful pid (.ok answer)
  | continued {answer : Answer} (status : answer.status = 0xffff) : Uneventful pid (.ok answer)

/-- A wait passes over uneventful replies. -/
theorem Reply.idle_of_uneventful {reply : Reply} (h : reply.Uneventful pid) : reply.Idle pid := by
  unfold Reply.Idle
  cases h with
  | interrupted => rfl
  | nothing zero =>
    rw [Reply.waitStatus, if_pos zero]
    rfl
  | @continued answer status =>
    by_cases zero : (answer.waited pid).number = 0
    · rw [Reply.waitStatus, if_pos zero]
      rfl
    · have hdecode : WaitStatus.decode? (answer.waited pid) 0xffff =
          some (.continued (answer.waited pid)) := rfl
      rw [Reply.waitStatus, if_neg zero, status, hdecode]
      rfl

/-- Wherever `x` waits for `pid`, uneventful replies in front of the one that it takes there add the
waits for them and change nothing else. -/
def IgnoresUneventful (pid : Pid) (x : Tracer α) : Prop :=
  ∀ before idle after : List Reply, (∀ reply ∈ idle, reply.Uneventful pid) →
    WaitAt pid before.length (x (before ++ after)).calls →
    Widened pid before.length idle (x (before ++ after)) (x (before ++ (idle ++ after)))

theorem Tracer.Patient.ignoresUneventful {x : Tracer α} (hx : x.Patient pid) :
    IgnoresUneventful pid x :=
  fun before idle after hidle =>
    hx.widened before idle after fun reply hreply => Reply.idle_of_uneventful (hidle reply hreply)

/-- A wait for a stop, with or without a session, and the dropping of a session take no account of
interrupted waits, of waits that report nothing and of a tracee that was continued. Any number of
such replies can come before a reply that a wait takes, or where a wait finds no reply left. The
result, the session and all other calls are the same, and the waits for them are all that is
added. -/
theorem waits_ignore_uneventful_replies (pid : Pid) :
    IgnoresUneventful pid (nextStop pid).run ∧ IgnoresUneventful pid (reachAttachStop pid).run ∧
      ∀ s : Session, s.pid = pid → IgnoresUneventful pid s.wait ∧ IgnoresUneventful pid s.drop := by
  refine ⟨(patient_nextStop pid).ignoresUneventful,
    (inherited_patient pid).reachAttachStop.ignoresUneventful, ?_⟩
  rintro s rfl
  exact ⟨s.patient_wait.ignoresUneventful, s.patient_drop.ignoresUneventful⟩

/-- An attaching session waits for a second time after an early stop, and that wait is interrupted,
has nothing to report and is told of a tracee that was continued before the attach-stop comes. The
same replies change nothing for a session that is dropped and has no other reply to wait for. -/
theorem uneventful_replies_before_attach_stop :
    let s := Session.attaching ⟨5⟩
    let idle : List Reply := [.error .eintr, .ok { returned := some 0 }, .ok { status := 0xffff }]
    let early : List Reply := [.ok { status := 0x0a7f }, .ok {}]
    let later : List Reply := [.ok { status := 0x137f }, .ok {}]
    (∀ reply ∈ idle, reply.Uneventful ⟨5⟩) ∧
      WaitAt ⟨5⟩ 2 (s.wait (early ++ later)).calls ∧
      (s.wait (early ++ later)).result.2.lastStop = some .attach ∧
      Widened ⟨5⟩ 2 idle (s.wait (early ++ later)) (s.wait (early ++ (idle ++ later))) ∧
      WaitAt ⟨5⟩ 0 (s.drop []).calls ∧ Widened ⟨5⟩ 0 idle (s.drop []) (s.drop idle) := by
  intro s idle early later
  have hidle : ∀ reply ∈ idle, reply.Uneventful ⟨5⟩ :=
    List.forall_mem_cons.2 ⟨.interrupted, List.forall_mem_cons.2 ⟨.nothing (by decide),
      List.forall_mem_singleton.2 (.continued rfl)⟩⟩
  have hwait : WaitAt ⟨5⟩ 2 (s.wait (early ++ later)).calls := by
    unfold WaitAt
    decide +kernel
  have hdrop : WaitAt ⟨5⟩ 0 (s.drop []).calls := by
    unfold WaitAt
    decide +kernel
  obtain ⟨-, -, hsession⟩ := waits_ignore_uneventful_replies ⟨5⟩
  obtain ⟨hwaits, hdrops⟩ := hsession s rfl
  have hwidened : Widened ⟨5⟩ 0 idle (s.drop []) (s.drop (idle ++ [])) :=
    hdrops [] idle [] hidle hdrop
  rw [List.append_nil] at hwidened
  exact ⟨hidle, hwait, by decide +kernel, hwaits early idle later hidle hwait, hdrop, hwidened⟩

end ProcTrace
