import ProcTrace.InstalledFilters
import ProcTrace.Proofs.Inherited
import ProcTrace.Proofs.Session.FailedWait

/-!
# Scripts that are used up

Every call takes the first reply that is left, and once none is left a wait finds no child and any
other request finds no process. `Served` counts the calls that are made beyond the last reply.

An error that says so much ends what is going on. So most tracers stop at their first call beyond
the last reply (`Tracer.StopsOnce`), and what is made up of several of them makes no more such calls
than it has parts (`Tracer.EndsWithin`). A loop takes a reply in every round that it goes on, so it
has one round more than there are replies at most (`Attempt.exists_rounds_loop`), and so has a
request that is repeated, as its last failure is accepted (`Tracer.exists_repeats_askUntil`).
Whatever the script, an operation comes to an end with two calls beyond it at most
(`operations_end_on_every_script`).
-/

namespace ProcTrace

variable {α β σ : Type}

/-! ## Calls that take the replies -/

/-- The calls take the replies one after the other and leave `rest`. As many of them as `beyond`
find no reply left, and fail. -/
inductive Served : Nat → List Reply → List Call → List Reply → Prop
  | none (rest : List Reply) : Served 0 rest [] rest
  | taken {beyond : Nat} {reply : Reply} {replies rest : List Reply} {calls : List Call}
      (request : Request) (later : Served beyond replies calls rest) :
      Served beyond (reply :: replies) (⟨request, reply⟩ :: calls) rest
  | childless {beyond : Nat} {calls : List Call} {rest : List Reply} (pid : Pid)
      (later : Served beyond [] calls rest) :
      Served (beyond + 1) [] (⟨.waitpid pid, .error .echild⟩ :: calls) rest
  | lost {beyond : Nat} {calls : List Call} {rest : List Reply} {request : Request}
      (other : ∀ pid, request ≠ .waitpid pid) (later : Served beyond [] calls rest) :
      Served (beyond + 1) [] (⟨request, .error .esrch⟩ :: calls) rest

variable {m n : Nat} {replies between rest : List Reply} {calls more : List Call}

/-- Calls that come after others take the replies that those have left. -/
theorem Served.append (h : Served m replies calls between) (h' : Served n between more rest) :
    Served (m + n) replies (calls ++ more) rest := by
  induction h with
  | none =>
    rw [Nat.zero_add]
    exact h'
  | taken request later ih => exact .taken request (ih h')
  | childless pid later ih =>
    rw [Nat.add_right_comm]
    exact .childless pid (ih h')
  | lost other later ih =>
    rw [Nat.add_right_comm]
    exact .lost other (ih h')

/-- Nothing is left once a call has found no reply. -/
theorem Served.rest_eq_nil (h : Served n replies calls rest) (hn : n ≠ 0 ∨ replies = []) :
    rest = [] := by
  induction h with
  | none => exact hn.resolve_left fun h => h rfl
  | taken request later ih => exact ih (hn.imp_right fun h => nomatch h)
  | childless pid later ih | lost other later ih => exact ih (.inr rfl)

/-- All calls but those beyond the last reply have taken one each. -/
theorem Served.length_eq (h : Served n replies calls rest) :
    calls.length + rest.length = replies.length + n := by
  induction h with
  | none => exact Nat.zero_add _
  | taken | childless | lost => simp only [List.length_cons, List.length_nil] at *; omega

namespace Tracer

variable {p : α → Prop} {q : β → Prop}

/-- On every script the tracer makes no more calls beyond the last reply than `bound`. -/
def EndsWithin (bound : Nat) (x : Tracer α) : Prop :=
  ∀ replies, ∃ beyond ≤ bound, Served beyond replies (x replies).calls (x replies).rest

/-- A call beyond the last reply is the only one, and the result is then one with the property. -/
def StopsOnce (p : α → Prop) (x : Tracer α) : Prop :=
  ∀ replies, Served 0 replies (x replies).calls (x replies).rest ∨
    Served 1 replies (x replies).calls (x replies).rest ∧ p (x replies).result

theorem EndsWithin.mono {x : Tracer α} (hx : x.EndsWithin m) (h : m ≤ n) : x.EndsWithin n :=
  fun replies => by
    obtain ⟨beyond, hle, hserved⟩ := hx replies
    exact ⟨beyond, Nat.le_trans hle h, hserved⟩

/-- So there are not many more calls than replies. -/
theorem EndsWithin.length_calls_le {x : Tracer α} (hx : x.EndsWithin n)
    (replies : List Reply) : (x replies).calls.length ≤ replies.length + n := by
  obtain ⟨beyond, hle, hserved⟩ := hx replies
  have hlength := hserved.length_eq
  omega

/-- The bounds of the parts add up. -/
theorem EndsWithin.bind {x : Tracer α} {f : α → Tracer β} (hx : x.EndsWithin m)
    (hf : ∀ a, (f a).EndsWithin n) : (x >>= f).EndsWithin (m + n) := fun replies => by
  obtain ⟨first, hfirst, hserved⟩ := hx replies
  obtain ⟨second, hsecond, hlater⟩ := hf (x replies).result (x replies).rest
  exact ⟨first + second, Nat.add_le_add hfirst hsecond, hserved.append hlater⟩

theorem StopsOnce.endsWithin {x : Tracer α} (hx : x.StopsOnce p) : x.EndsWithin 1 :=
  fun replies => by
    rcases hx replies with hserved | ⟨hserved, -⟩
    · exact ⟨0, Nat.zero_le _, hserved⟩
    · exact ⟨1, Nat.le_refl _, hserved⟩

theorem StopsOnce.mono {p' : α → Prop} {x : Tracer α} (hx : x.StopsOnce p)
    (h : ∀ a, p a → p' a) : x.StopsOnce p' := fun replies =>
  (hx replies).imp_right fun ⟨hserved, hp⟩ => ⟨hserved, h _ hp⟩

theorem stopsOnce_pure (a : α) : StopsOnce p (pure a : Tracer α) := fun replies =>
  .inl (.none replies)

theorem endsWithin_pure (a : α) : EndsWithin 0 (pure a : Tracer α) := fun replies =>
  ⟨0, Nat.le_refl _, .none replies⟩

theorem endsWithin_note (record : Record) : EndsWithin 0 (note record) := fun replies =>
  ⟨0, Nat.le_refl _, .none replies⟩

/-- A single request makes one call, which may be beyond the last reply. -/
theorem stopsOnce_ask {request : Request} (h : request.lastErrno = .esrch) :
    StopsOnce (· = .error .esrch) (ask request)
  | [] => by
    refine .inr ⟨?_, congrArg Except.error h⟩
    rw [ask, h]
    exact .lost (Request.ne_waitpid h) (.none [])
  | reply :: replies => .inl (.taken request (.none replies))

/-- A wait that finds no reply finds no child. If that is accepted, it is not repeated. -/
theorem stopsOnce_askUntil_waitpid {pid : Pid} {judge : Reply → Except Errno α ⊕ List Record}
    (accepts : judge (.error (Request.waitpid pid).lastErrno) =
      .inl (.error (Request.waitpid pid).lastErrno)) :
    StopsOnce (· = .error .echild) (askUntil (.waitpid pid) judge accepts) := fun replies => by
  induction replies with
  | nil =>
    rw [askUntil_nil]
    exact .inr ⟨.childless pid (.none []), rfl⟩
  | cons reply replies ih =>
    cases h : judge reply with
    | inl result =>
      rw [askUntil_of_accepted h]
      exact .inl (.taken _ (.none replies))
    | inr records =>
      rw [askUntil_of_passed h]
      exact ih.imp (.taken _) fun ⟨hserved, hresult⟩ => ⟨.taken _ hserved, hresult⟩

/-- What is made of the result keeps the property in its own way. -/
theorem StopsOnce.map {x : Tracer α} (hx : x.StopsOnce p) {f : α → β} (h : ∀ a, p a → q (f a)) :
    StopsOnce q fun replies => (x replies).withResult (f (x replies).result) := fun replies =>
  (hx replies).imp_right fun ⟨hserved, hp⟩ => ⟨hserved, h _ hp⟩

/-- After a call beyond the last reply nothing more may be asked. -/
theorem StopsOnce.bind {x : Tracer α} {f : α → Tracer β} (hx : x.StopsOnce p)
    (hf : ∀ a, (f a).StopsOnce q)
    (hlast : ∀ a, p a → ∃ b log, f a [] = ⟨b, [], log, []⟩ ∧ q b) : (x >>= f).StopsOnce q :=
  fun replies => by
    rw [bind_apply]
    rcases hx replies with hserved | ⟨hserved, hp⟩
    · refine (hf (x replies).result (x replies).rest).imp (fun hlater => ?_) fun ⟨hlater, hq⟩ => ?_
      · exact hserved.append hlater
      · exact ⟨hserved.append hlater, hq⟩
    · have hrest : (x replies).rest = [] := hserved.rest_eq_nil (.inl Nat.one_ne_zero)
      obtain ⟨b, log, happly, hq⟩ := hlast _ hp
      rw [hrest] at hserved ⊢
      rw [happly]
      exact .inr ⟨hserved.append (.none []), hq⟩

/-! ## Rounds of a repeated request -/

/-- The request is made `count` times in this exchange, until `judge` accepts a reply. A script that
is used up is not told from others here, so if the failure that comes then were passed over, there
would be no such exchange. -/
inductive Repeats (request : Request) (judge : Reply → Except Errno α ⊕ List Record) :
    Nat → List Reply → Exchange (Except Errno α) → Prop
  | accepted {replies : List Reply} {result : Except Errno α}
      (accepts : judge (ask request replies).result = .inl result) :
      Repeats request judge 1 replies ((ask request replies).withResult result)
  | passed {count : Nat} {replies : List Reply} {records : List Record}
      {later : Exchange (Except Errno α)}
      (passes : judge (ask request replies).result = .inr records)
      (repeats : Repeats request judge count (ask request replies).rest later) :
      Repeats request judge (count + 1) replies
        ((⟨(), (ask request replies).calls, records, (ask request replies).rest⟩ :
          Exchange Unit).followedBy later)

/-- A request whose last failure is accepted is made once more than there are replies at most. -/
theorem exists_repeats_askUntil {request : Request} {judge : Reply → Except Errno α ⊕ List Record}
    (accepts : judge (.error request.lastErrno) = .inl (.error request.lastErrno))
    (replies : List Reply) :
    ∃ count ≤ replies.length + 1,
      Repeats request judge count replies (askUntil request judge accepts replies) := by
  induction replies with
  | nil =>
    rw [askUntil_nil]
    exact ⟨1, Nat.le_refl 1, .accepted accepts⟩
  | cons reply rest ih =>
    cases h : judge reply with
    | inl result =>
      rw [askUntil_of_accepted h]
      exact ⟨1, Nat.le_add_left 1 _, .accepted h⟩
    | inr records =>
      obtain ⟨count, hcount, hrepeats⟩ := ih
      rw [askUntil_of_passed h]
      exact ⟨count + 1, Nat.succ_le_succ hcount, .passed h hrepeats⟩

/-- On a script that is used up a repeated request comes to an end only if its last failure is
accepted. -/
theorem exists_repeats_nil_iff (request : Request) (judge : Reply → Except Errno α ⊕ List Record) :
    (∃ count x, Repeats request judge count [] x) ↔
      ∃ result, judge (.error request.lastErrno) = .inl result := by
  constructor
  · rintro ⟨count, x, hrepeats⟩
    generalize hnil : ([] : List Reply) = replies at hrepeats
    -- Every round of such a request finds the same failure.
    induction hrepeats with
    | @accepted _ result accepts =>
      subst hnil
      exact ⟨result, accepts⟩
    | passed passes repeats ih =>
      subst hnil
      exact ih rfl
  · rintro ⟨result, haccepts⟩
    exact ⟨1, _, .accepted haccepts⟩

end Tracer

namespace Attempt

/-- The result is an error with the property. -/
def FailedWith (p : Error → Prop) : Except Error α → Prop
  | .ok _ => False
  | .error error => p error

/-- A call beyond the last reply is the only one, and the attempt then fails with such an error. -/
abbrev StopsOnce (p : Error → Prop) (x : Attempt α) : Prop :=
  Tracer.StopsOnce (FailedWith p) x.run

/-- The error says that the tracee is gone. -/
abbrev Gone (error : Error) : Prop :=
  error.traceeGone = true

variable {p : Error → Prop}

theorem stopsOnce_pure (a : α) : StopsOnce p (pure a : Attempt α) := fun replies =>
  .inl (.none replies)

theorem stopsOnce_throw (error : Error) : StopsOnce p (throw error : Attempt α) := fun replies =>
  .inl (.none replies)

theorem stopsOnce_note (record : Record) : StopsOnce p (note record) := fun replies =>
  .inl (.none replies)

theorem stopsOnce_askOr {cause : Errno → Error} {request : Request}
    (hrequest : request.lastErrno = .esrch) (hcause : p (cause .esrch)) :
    StopsOnce p (askOr cause request) := by
  refine (Tracer.stopsOnce_ask hrequest).map fun reply hreply => ?_
  rw [hreply]
  exact hcause

/-- A command that finds no process fails as the tracee is gone. -/
theorem stopsOnce_command (pid : Pid) {request : Request} (h : request.lastErrno = .esrch) :
    StopsOnce Gone (command pid request) := by
  have hasked : StopsOnce Gone (askOr (.ofErrno pid) request) := stopsOnce_askOr h rfl
  refine hasked.map fun result hresult => ?_
  cases result with
  | ok answer => exact hresult
  | error error => exact hresult

/-- An attempt that fails does not go on, so its parts together make one such call at most. -/
theorem StopsOnce.bind {x : Attempt α} {f : α → Attempt β} (hx : x.StopsOnce p)
    (hf : ∀ a, (f a).StopsOnce p) : (x >>= f).StopsOnce p := by
  refine Tracer.StopsOnce.bind hx (fun outcome => ?_) fun outcome hfailed => ?_
  · cases outcome with
    | ok a => exact hf a
    | error error => exact stopsOnce_throw error
  · cases outcome with
    | ok a => exact hfailed.elim
    | error error => exact ⟨.error error, [], rfl, hfailed⟩

/-- A step that goes on has made no such call, so the whole loop makes one at most. -/
theorem StopsOnce.loop {step : σ → Attempt (α ⊕ σ)}
    {progress : ∀ state replies next, (step state replies).result = .ok (.inr next) →
      (step state replies).rest.length < replies.length}
    (h : ∀ state, (step state).StopsOnce p) (state : σ) :
    StopsOnce p (loop step progress state) := by
  intro replies
  refine loop_induction (motive := fun _ replies x => Served 0 replies x.calls x.rest ∨
    Served 1 replies x.calls x.rest ∧ FailedWith p x.result) ?failed ?done ?next state replies
  case failed =>
    intro state replies error hr
    refine (h state replies).imp_right fun ⟨hserved, hp⟩ => ⟨hserved, ?_⟩
    rwa [ExceptT.run, hr] at hp
  case done =>
    intro state replies a hr
    refine (h state replies).imp_right fun ⟨_, hp⟩ => ?_
    rw [ExceptT.run, hr] at hp
    exact hp.elim
  case next =>
    intro state replies next hr ih
    rcases h state replies with hserved | ⟨_, hp⟩
    · exact ih.imp hserved.append fun ⟨hlater, hp⟩ => ⟨hserved.append hlater, hp⟩
    · rw [ExceptT.run, hr] at hp
      exact hp.elim

theorem endsWithin_bind {x : Attempt α} {f : α → Attempt β} (hx : Tracer.EndsWithin m x.run)
    (hf : ∀ a, Tracer.EndsWithin n (f a).run) : Tracer.EndsWithin (m + n) (x >>= f).run := by
  refine hx.bind fun outcome => ?_
  cases outcome with
  | ok a => exact hf a
  | error error => exact (Tracer.endsWithin_pure _).mono (Nat.zero_le n)

theorem endsWithin_outcome {x : Attempt α} (hx : Tracer.EndsWithin n x.run) :
    Tracer.EndsWithin n x.outcome.run := fun replies =>
  hx replies

/-- An attempt that goes on only while there are replies makes no more calls beyond the last one
than what it goes on with. -/
theorem StopsOnce.bind_endsWithin {x : Attempt α} {f : α → Attempt β} (hx : x.StopsOnce p)
    (hn : 0 < n) (hf : ∀ a, Tracer.EndsWithin n (f a).run) :
    Tracer.EndsWithin n (x >>= f).run := fun replies => by
  show ∃ beyond ≤ n, Served beyond replies ((x >>= f) replies).calls ((x >>= f) replies).rest
  rcases bind_cases x f replies with ⟨error, hr, h⟩ | ⟨a, hr, h⟩
  · obtain ⟨beyond, hle, hserved⟩ := hx.endsWithin replies
    rw [h]
    exact ⟨beyond, Nat.le_trans hle hn, hserved⟩
  · rcases hx replies with hserved | ⟨_, hp⟩
    · obtain ⟨beyond, hle, hlater⟩ := hf a (x replies).rest
      rw [h]
      exact ⟨beyond, hle, Nat.zero_add beyond ▸ hserved.append hlater⟩
    · rw [ExceptT.run, hr] at hp
      exact hp.elim

/-! ## Rounds of a loop -/

/-- The steps, taken one after the other, come to an end after `count` rounds, in this exchange. -/
inductive Rounds (step : σ → Attempt (α ⊕ σ)) :
    Nat → σ → List Reply → Exchange (Except Error α) → Prop
  | failed {state : σ} {replies : List Reply} {error : Error}
      (fails : (step state replies).result = .error error) :
      Rounds step 1 state replies ((step state replies).withResult (.error error))
  | done {state : σ} {replies : List Reply} {a : α}
      (ends : (step state replies).result = .ok (.inl a)) :
      Rounds step 1 state replies ((step state replies).withResult (.ok a))
  | next {count : Nat} {state next : σ} {replies : List Reply} {later : Exchange (Except Error α)}
      (goes : (step state replies).result = .ok (.inr next))
      (rounds : Rounds step count next (step state replies).rest later) :
      Rounds step (count + 1) state replies ((step state replies).followedBy later)

/-- A loop has one round more than there are replies at most. -/
theorem exists_rounds_loop {step : σ → Attempt (α ⊕ σ)}
    (progress : ∀ state replies next, (step state replies).result = .ok (.inr next) →
      (step state replies).rest.length < replies.length) (state : σ) (replies : List Reply) :
    ∃ count ≤ replies.length + 1,
      Rounds step count state replies (loop step progress state replies) := by
  refine loop_induction (motive := fun state replies x =>
    ∃ count ≤ replies.length + 1, Rounds step count state replies x) ?failed ?done ?next
    state replies
  case failed => exact fun _ _ _ hr => ⟨1, Nat.le_add_left 1 _, .failed hr⟩
  case done => exact fun _ _ _ hr => ⟨1, Nat.le_add_left 1 _, .done hr⟩
  case next =>
    intro state replies next hr ih
    obtain ⟨count, hcount, hrounds⟩ := ih
    have hlt := progress state replies next hr
    exact ⟨count + 1, by omega, .next hr hrounds⟩

end Attempt

/-! ## Requests about a tracee -/

section

variable (pid : Pid)

open Attempt (Gone)

/-- A wait ends when it finds no child, since it is not repeated then. -/
theorem stopsOnce_nextChange (passedOver : WaitStatus → List Record) :
    Tracer.StopsOnce (· = .error .echild) (nextChange pid passedOver) :=
  Tracer.stopsOnce_askUntil_waitpid (judgeWait_lastErrno pid passedOver)

theorem stopsOnce_nextStop : Attempt.StopsOnce Gone (nextStop pid) := by
  have hmeans (change : Except Errno (Pid × Change)) :
      Attempt.StopsOnce Gone (stopOfChange pid change) := by
    match change with
    | .ok (_, .stopped _) => exact Attempt.stopsOnce_pure _
    | .ok (_, .ended _) => exact (Attempt.stopsOnce_note _).bind fun _ => Attempt.stopsOnce_throw _
    | .error _ => exact Attempt.stopsOnce_throw _
  refine (stopsOnce_nextChange pid _).bind hmeans ?_
  rintro _ rfl
  exact ⟨.error (.noSuchProcess pid .echild), [], rfl, rfl⟩

/-- What is put together from waits, requests and notes stops when the tracee is gone. -/
theorem inherited_stopsOnce : Attempt.Inherited pid fun _ => Attempt.StopsOnce Gone where
  pure := Attempt.stopsOnce_pure
  throw := Attempt.stopsOnce_throw
  note _ := Attempt.stopsOnce_note _
  ask h := Attempt.stopsOnce_askOr h rfl
  command h := Attempt.stopsOnce_command pid h
  nextStop := stopsOnce_nextStop pid
  bind := Attempt.StopsOnce.bind
  loop := Attempt.StopsOnce.loop

theorem stopsOnce_stopsGroup (signal : Signal) :
    Attempt.StopsOnce Gone (stopsGroup pid signal) := by
  unfold stopsGroup
  split
  · have hask : Tracer.StopsOnce (· = .error .esrch) (Tracer.ask (.signalInfo pid)) :=
      Tracer.stopsOnce_ask rfl
    refine hask.map ?_
    rintro _ rfl
    rfl
  · exact Attempt.stopsOnce_pure false

namespace SeccompFilter

theorem stopsOnce_read (index : Nat) : Attempt.StopsOnce Gone (read pid index) :=
  (inherited_stopsOnce pid).readFilter fun _ => Attempt.stopsOnce_askOr rfl rfl

/-- A tracee that is gone does not end the chain like a filter that is missing. -/
theorem stopsOnce_readNext (limit : Option Nat) (earlier : List SeccompFilter) :
    Attempt.StopsOnce Gone (readNext pid limit earlier) := by
  unfold readNext
  split
  · exact Attempt.stopsOnce_pure (Sum.inl earlier)
  · refine (stopsOnce_read pid earlier.length).map fun result hfailed => ?_
    cases result with
    | ok filter => exact hfailed.elim
    | error error =>
      cases error with
      | noSuchFilter => cases hfailed
      | _ => exact hfailed

theorem stopsOnce_readAll (limit : Option Nat) : Attempt.StopsOnce Gone (readAll pid limit) :=
  Attempt.StopsOnce.loop (stopsOnce_readNext pid limit) []

end SeccompFilter

end

/-! ## Sessions -/

namespace Session

open Attempt (Gone FailedWith)

variable (s : Session)

/-- The wait has failed, and the session has ended as the tracee is gone. -/
def WaitedInVain (waited : Except Error Stop × Session) : Prop :=
  FailedWith Gone waited.1 ∧ waited.2.state = .exited

theorem stopsOnce_interpret (change : Change) :
    Attempt.StopsOnce Gone (s.interpret change) :=
  (inherited_stopsOnce s.pid).interpret (stopsOnce_stopsGroup s.pid) change

/-- To record a change takes no call. -/
theorem stopsOnce_record (classified : Except Error (Stop × Bool)) :
    Tracer.StopsOnce WaitedInVain (s.record classified) := fun replies => by
  cases classified with
  | ok c => exact .inl (.none replies)
  | error error => exact .inl (.none replies)

theorem stopsOnce_awaitAttachStop : Tracer.StopsOnce WaitedInVain s.awaitAttachStop := by
  have hreach : Attempt.StopsOnce Gone (reachAttachStop s.pid) :=
    (inherited_stopsOnce s.pid).reachAttachStop
  refine Tracer.StopsOnce.bind hreach (fun reached replies => ?_) fun reached hfailed => ?_
  · cases reached with
    | ok u => exact .inl (.none replies)
    | error error => exact .inl (.none replies)
  · cases reached with
    | ok u => exact hfailed.elim
    | error error =>
      have hgone : error.traceeGone = true := hfailed
      refine ⟨_, _, rfl, hgone, ?_⟩
      rw [if_pos hgone]

theorem stopsOnce_awaitChange : Tracer.StopsOnce WaitedInVain s.awaitChange := by
  refine (stopsOnce_nextChange s.pid _).bind (fun changed => ?_) ?_
  · cases changed with
    | ok reported =>
      refine Tracer.StopsOnce.bind (s.stopsOnce_interpret reported.2) s.stopsOnce_record
        fun classified hfailed => ?_
      cases classified with
      | ok c => exact hfailed.elim
      | error error =>
        have hgone : error.traceeGone = true := hfailed
        exact ⟨_, _, rfl, hgone, (s.exited_settle_error_iff error).2 hgone⟩
    | error errno => exact Tracer.stopsOnce_pure _
  · rintro _ rfl
    exact ⟨_, _, rfl, rfl, rfl⟩

/-- A wait that finds no reply left ends the session. -/
theorem stopsOnce_wait : Tracer.StopsOnce WaitedInVain s.wait := by
  unfold wait
  split
  · exact s.stopsOnce_awaitAttachStop
  · exact s.stopsOnce_awaitChange
  · exact Tracer.stopsOnce_pure _

/-- To let go takes no call after one that was beyond the last reply, but it may take that one. -/
theorem endsWithin_detachDropped (silent : Error → Bool) {x : Attempt Unit}
    (hx : x.StopsOnce Gone) : (s.detachDropped silent x).EndsWithin 1 := by
  refine hx.endsWithin.bind (n := 0) fun outcome => ?_
  cases outcome with
  | ok u => exact Tracer.endsWithin_pure ()
  | error error =>
    dsimp only
    split
    · exact Tracer.endsWithin_pure ()
    · exact Tracer.endsWithin_note _

theorem endsWithin_drop : s.drop.EndsWithin 1 := by
  unfold drop
  split
  · exact s.endsWithin_detachDropped _ (inherited_stopsOnce s.pid).detach
  · exact s.endsWithin_detachDropped _
      ((inherited_stopsOnce s.pid).reachAttachStop.bind fun _ => (inherited_stopsOnce s.pid).detach)
  · exact (Tracer.endsWithin_note _).mono (Nat.zero_le 1)
  · exact (Tracer.endsWithin_pure ()).mono (Nat.zero_le 1)
  · exact (Tracer.endsWithin_pure ()).mono (Nat.zero_le 1)

/-- Detaching from a tracee that is not stopped drops the session. -/
theorem endsWithin_detach : Tracer.EndsWithin 1 s.detach.run := by
  unfold detach
  split
  · exact (inherited_stopsOnce s.pid).detach.endsWithin
  · exact s.endsWithin_drop.bind (n := 0) fun _ => Tracer.endsWithin_pure _

theorem drop_of_exited {s : Session} (h : s.state = .exited) : s.drop = pure () := by
  simp only [drop, h]

/-- If the wait finds no reply left, there is nothing to drop. -/
theorem stopsOnce_waitOrDrop : Attempt.StopsOnce (fun _ => True) s.waitOrDrop := fun replies => by
  show Served 0 replies (s.waitOrDrop replies).calls (s.waitOrDrop replies).rest ∨
    Served 1 replies (s.waitOrDrop replies).calls (s.waitOrDrop replies).rest ∧
      FailedWith (fun _ => True) (s.waitOrDrop replies).result
  cases hr : (s.wait replies).result.1 with
  | ok stop =>
    rw [waitOrDrop_of_ok hr]
    rcases s.stopsOnce_wait replies with hserved | ⟨_, hfailed, _⟩
    · exact .inl hserved
    · rw [hr] at hfailed
      exact hfailed.elim
  | error error =>
    rw [waitOrDrop_of_error hr]
    rcases s.stopsOnce_wait replies with hserved | ⟨hserved, _, hexited⟩
    · obtain ⟨beyond, hle, hdropped⟩ :=
        (s.wait replies).result.2.endsWithin_drop (s.wait replies).rest
      obtain rfl | rfl : beyond = 0 ∨ beyond = 1 := by omega
      · exact .inl (hserved.append hdropped)
      · exact .inr ⟨hserved.append hdropped, trivial⟩
    · rw [drop_of_exited hexited]
      exact .inr ⟨hserved.append (.none _), trivial⟩

theorem stopsOnce_adoptStopped (pid : Pid) :
    Attempt.StopsOnce (fun _ => True) (adoptStopped pid) :=
  ((Attempt.stopsOnce_note _).bind fun _ => Attempt.stopsOnce_pure _).bind stopsOnce_waitOrDrop

theorem stopsOnce_attachStopped (pid : Pid) :
    Attempt.StopsOnce (fun _ => True) (attachStopped pid) := by
  have hattach : Attempt.StopsOnce (fun _ => True) (Tracee.attach pid) :=
    (inherited_stopsOnce pid).attach.mono fun result hfailed => by
      cases result with
      | ok u => exact hfailed.elim
      | error error => trivial
  exact (hattach.bind fun _ =>
    (Attempt.stopsOnce_note _).bind fun _ => Attempt.stopsOnce_pure _).bind stopsOnce_waitOrDrop

theorem endsWithin_filters (limit : Option Nat) : Tracer.EndsWithin 1 (s.filters limit).run := by
  unfold filters whenStopped
  split
  · exact (SeccompFilter.stopsOnce_readAll s.pid limit).endsWithin
  · exact (Tracer.endsWithin_pure _).mono (Nat.zero_le 1)

end Session

/-- Reading the filters and detaching can each find that no reply is left. -/
theorem endsWithin_installedFilters (pid : Pid) (limit : Option Nat) :
    Tracer.EndsWithin 2 (installedFilters pid limit).run := by
  have hreport (filters : Except Error (List SeccompFilter)) (detached : Except Error Unit) :
      Tracer.EndsWithin 0 (reportFilters pid filters detached).run := by
    match filters, detached with
    | .ok _, .ok () | .error _, _ | .ok _, .error _ =>
      exact fun replies => ⟨0, Nat.le_refl 0, .none replies⟩
  refine (Session.stopsOnce_attachStopped pid).bind_endsWithin Nat.two_pos fun s => ?_
  have hdetach (filters : Except Error (List SeccompFilter)) :
      Tracer.EndsWithin 1 (s.detach.outcome >>= reportFilters pid filters).run :=
    Attempt.endsWithin_bind (n := 0) (Attempt.endsWithin_outcome s.endsWithin_detach)
      (hreport filters)
  exact Attempt.endsWithin_bind (n := 1)
    (Attempt.endsWithin_outcome (s.endsWithin_filters limit)) hdetach

/-! ## All operations -/

/-- Every operation comes to an end on every script. Each call takes the first reply that is left,
and beyond the last one a wait for a stop, a reading of filters, a wait of a session, its beginning
and its end make one more call at most. Reading the filters of a process and letting it go again
makes two. The loops have no bound of their own. A wait that is repeated until a reply is accepted
ends on a script that is used up just if finding no child is accepted, and it is : the loops that
repeat a wait, that pass over early stops and that go through a chain of filters have one round more
than there are replies at most. -/
theorem operations_end_on_every_script (pid : Pid) (limit : Option Nat) (s : Session) :
    Tracer.EndsWithin 1 (nextStop pid).run ∧ Tracer.EndsWithin 1 (reachAttachStop pid).run ∧
      Tracer.EndsWithin 1 (SeccompFilter.readAll pid limit).run ∧
      Tracer.EndsWithin 1 s.wait ∧ Tracer.EndsWithin 1 s.drop ∧
      Tracer.EndsWithin 1 (Session.attachStopped pid).run ∧
      Tracer.EndsWithin 1 (Session.adoptStopped pid).run ∧
      Tracer.EndsWithin 2 (installedFilters pid limit).run ∧
      (∀ judge : Reply → Except Errno (Pid × Change) ⊕ List Record,
        (∃ count x, Tracer.Repeats (.waitpid pid) judge count [] x) ↔
          ∃ result, judge (.error .echild) = .inl result) ∧
      ∀ replies : List Reply,
        (∀ passedOver, (nextChange pid passedOver replies).calls.length ≤ replies.length + 1 ∧
          ∃ count ≤ replies.length + 1, Tracer.Repeats (.waitpid pid) (judgeWait pid passedOver)
            count replies (nextChange pid passedOver replies)) ∧
        (∃ count ≤ replies.length + 1,
          Attempt.Rounds (passStop pid) count [] replies (passStops pid replies)) ∧
        ∃ count ≤ replies.length + 1, Attempt.Rounds (SeccompFilter.readNext pid limit) count []
          replies (SeccompFilter.readAll pid limit replies) := by
  refine ⟨(stopsOnce_nextStop pid).endsWithin, (inherited_stopsOnce pid).reachAttachStop.endsWithin,
    (SeccompFilter.stopsOnce_readAll pid limit).endsWithin, s.stopsOnce_wait.endsWithin,
    s.endsWithin_drop, (Session.stopsOnce_attachStopped pid).endsWithin,
    (Session.stopsOnce_adoptStopped pid).endsWithin, endsWithin_installedFilters pid limit,
    Tracer.exists_repeats_nil_iff (.waitpid pid),
    fun replies => ⟨fun passedOver => ?waits, ?stops, ?filters⟩⟩
  case waits =>
    exact ⟨(stopsOnce_nextChange pid passedOver).endsWithin.length_calls_le replies,
      Tracer.exists_repeats_askUntil (judgeWait_lastErrno pid passedOver) replies⟩
  case stops => exact Attempt.exists_rounds_loop _ [] replies
  case filters => exact Attempt.exists_rounds_loop _ [] replies

/-- The replies end once the tracee is stopped, so neither a filter nor the end of the session finds
one. -/
example : (installedFilters ⟨5⟩ none [.ok {}, .ok { status := 0x137f }]).calls.map Call.request =
    [.attach ⟨5⟩, .waitpid ⟨5⟩, .seccompFilter ⟨5⟩ 0 none, .detach ⟨5⟩ none] := by
  decide +kernel

end ProcTrace
