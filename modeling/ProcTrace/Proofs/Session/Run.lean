import ProcTrace.Proofs.Session.Step
import ProcTrace.Session.Lifetime

/-!
# Runs of a session

A run begins with one of the four openings and goes on with turns, each an operation with the
replies that the kernel has for it. If all operations of a run take their replies from one list,
the replies of a turn are those that the turns before it have left, so runs of this kind are
among those here.

`Session.Sound` relates the four fields of a session that change. It holds at the beginning and is
kept by every step, hence of every session that a run reaches (`sound_after`).
`Step.state_move` says how the state can move.
-/

namespace ProcTrace

/-! ## Openings -/

/-- The ways in which a session begins. -/
inductive Opening
  | attach | attachStopped | adopt | adoptStopped
  deriving DecidableEq, Repr

namespace Opening

/-- Begins a session. -/
def perform (pid : Pid) : Opening → Attempt Session
  | attach => Session.attach pid
  | attachStopped => Session.attachStopped pid
  | adopt => Session.adopt pid
  | adoptStopped => Session.adoptStopped pid

/-- The opening up to its wait. -/
def begin (pid : Pid) : Opening → Attempt Session
  | attach | attachStopped => Session.attach pid
  | adopt | adoptStopped => Session.adopt pid

/-- The opening waits for the attach-stop. -/
def waits : Opening → Bool
  | attachStopped | adoptStopped => true
  | attach | adopt => false

theorem perform_of_waits {opening : Opening} (h : opening.waits = true) (pid : Pid) :
    opening.perform pid = opening.begin pid >>= Session.waitOrDrop := by
  cases opening with
  | attach | adopt => cases h
  | attachStopped | adoptStopped => rfl

theorem perform_of_not_waits {opening : Opening} (h : opening.waits = false) (pid : Pid) :
    opening.perform pid = opening.begin pid := by
  cases opening with
  | attachStopped | adoptStopped => cases h
  | attach | adopt => rfl

/-- An opening makes no request before its wait but to attach. -/
theorem asks_begin (opening : Opening) (pid : Pid) :
    (opening.begin pid).Asks (· = .attach pid) := by
  have hadopt : (Session.adopt pid).Asks (· = .attach pid) :=
    (Attempt.asks_note _).bind fun _ => Attempt.asks_pure _
  have hattach : (Session.attach pid).Asks (· = .attach pid) :=
    ((Attempt.asks_note _).bind fun _ => Attempt.asks_command pid (by rfl)).bind fun _ => hadopt
  cases opening with
  | attach | attachStopped => exact hattach
  | adopt | adoptStopped => exact hadopt

/-- A session begins attaching. -/
theorem eq_attaching_of_begin {opening : Opening} {pid : Pid} {replies : List Reply} {s : Session}
    (h : (opening.begin pid replies).result = .ok s) : s = .attaching pid := by
  have hadopt : ∀ rest, (Session.adopt pid rest).result = .ok (.attaching pid) := fun _ => rfl
  have hattach (h : (Session.attach pid replies).result = .ok s) : s = .attaching pid := by
    obtain ⟨_, _, hbind⟩ :=
      Attempt.exists_of_bind_eq_ok (x := Tracee.attach pid) (f := fun _ => Session.adopt pid) h
    have hr := (congrArg Exchange.result hbind).symm.trans h
    exact (Except.ok.inj ((hadopt (Tracee.attach pid replies).rest).symm.trans hr)).symm
  cases opening with
  | attach | attachStopped => exact hattach h
  | adopt | adoptStopped => exact (Except.ok.inj ((hadopt replies).symm.trans h)).symm

end Opening

/-! ## Turns -/

/-- An operation, with the replies that the kernel has for it. -/
structure Turn where
  operation : Operation
  replies : List Reply

namespace Session

/-- What comes of a turn. -/
def take (s : Session) (turn : Turn) : Exchange (Except Error Outcome × Session) :=
  turn.operation.perform s turn.replies

/-- The session after some turns. -/
def after : Session → List Turn → Session
  | s, [] => s
  | s, turn :: turns => (s.take turn).result.2.after turns

theorem after_append (s : Session) (turns more : List Turn) :
    s.after (turns ++ more) = (s.after turns).after more := by
  induction turns generalizing s with
  | nil => rfl
  | cons turn turns ih => exact ih _

theorem step_take (s : Session) (turn : Turn) :
    s.Step turn.operation (s.take turn).calls (s.take turn).result.1 (s.take turn).result.2 :=
  step_perform s turn.operation turn.replies

end Session

/-! ## The states of a run -/

/-- The states that can follow a state, besides itself. -/
def State.successors : State → List State
  | attaching => [stopped, exited]
  | stopped => [continuing]
  | continuing => [stopped, exited]
  | detached | exited => []

namespace Session

/-- What the fields of a session have to do with each other. -/
structure Sound (s : Session) : Prop where
  /-- Nothing was reported or set while the session is attaching. -/
  attaching : s.state = .attaching → s.lastStop = none ∧ s.options = none ∧ s.inSyscall = false
  /-- A running tracee is at no stop. -/
  continuing : s.state = .continuing → s.lastStop = none
  /-- A tracee that reported a stop is there, or has ended if that is what it reported. -/
  lastStop : ∀ stop, s.lastStop = some stop →
    s.state = if stop.isTerminal then .exited else .stopped
  attached : s.state ≠ .detached

theorem state_afterFailedAttach (s : Session) (error : Error) :
    (s.afterFailedAttach error).state = if error.traceeGone then .exited else s.state := by
  unfold afterFailedAttach
  split <;> rfl

theorem state_afterFailedWait (s : Session) (errno : Errno) :
    (s.afterFailedWait errno).state = if errno = .echild then .exited else s.state := by
  unfold afterFailedWait
  split <;> rfl

/-- A failed wait for the attach-stop changes the state at most. -/
theorem exists_afterFailedAttach_eq (s : Session) (error : Error) :
    ∃ state, s.afterFailedAttach error = { s with state } := by
  unfold afterFailedAttach
  split
  · exact ⟨.exited, rfl⟩
  · exact ⟨s.state, rfl⟩

/-- So does a failed wait of a running session. -/
theorem exists_afterFailedWait_eq (s : Session) (errno : Errno) :
    ∃ state, s.afterFailedWait errno = { s with state } := by
  unfold afterFailedWait
  split
  · exact ⟨.exited, rfl⟩
  · exact ⟨s.state, rfl⟩

theorem state_settle (s : Session) (classified : Except Error (Stop × Bool)) :
    (s.settle classified).state = .stopped ∨ (s.settle classified).state = .exited := by
  cases classified with
  | ok c =>
    simp only [settle]
    split
    · exact Or.inr rfl
    · exact Or.inl rfl
  | error error =>
    simp only [settle]
    split
    · exact Or.inr rfl
    · exact Or.inl rfl

variable {s t : Session} {operation : Operation} {calls : List Call}
  {result : Except Error Outcome}

/-- The state is kept, or moves on to a successor. -/
theorem Step.state_move (h : s.Step operation calls result t) :
    t.state = s.state ∨ t.state ∈ s.state.successors := by
  cases h with
  | refused | notResumed | optionsSet | optionsNotSet | read => exact Or.inl rfl
  | attachStop state => simp [state, State.successors]
  | attachFailed state =>
    rw [state_afterFailedAttach]
    split <;> simp [state, State.successors]
  | waitFailed state =>
    rw [state_afterFailedWait]
    split <;> simp [state, State.successors]
  | @changed _ _ _ _ _ classified state =>
    rcases state_settle s classified with h | h <;> simp [h, state, State.successors]
  | resumed answer state => simp [state, State.successors]

theorem sound_settle (s : Session) (classified : Except Error (Stop × Bool)) :
    (s.settle classified).Sound := by
  have hstate := state_settle s classified
  refine ⟨fun h => ?_, fun h => ?_, ?_, fun h => ?_⟩
  · rcases hstate with hs | hs <;> simp [hs] at h
  · rcases hstate with hs | hs <;> simp [hs] at h
  · intro stop hstop
    cases classified with
    | ok c =>
      obtain rfl : c.1 = stop := by simpa [settle] using hstop
      rfl
    | error error => simp [settle] at hstop
  · rcases hstate with hs | hs <;> simp [hs] at h

/-- A session that has ended without a last stop. -/
theorem sound_exited (h : s.lastStop = none) : Sound { s with state := .exited } :=
  ⟨by simp, by simp, by simp [h], by simp⟩

/-- Every step keeps a session sound. -/
theorem Step.sound (h : s.Step operation calls result t) (hs : s.Sound) : t.Sound := by
  cases h with
  | refused | notResumed | optionsNotSet | read => exact hs
  | attachStop state => exact ⟨by simp, by simp, by simp [Stop.isTerminal], by simp⟩
  | attachFailed state =>
    unfold afterFailedAttach
    split
    · exact sound_exited (hs.attaching state).1
    · exact hs
  | waitFailed state =>
    unfold afterFailedWait
    split
    · exact sound_exited (hs.continuing state)
    · exact hs
  | changed state => exact sound_settle s _
  | resumed answer state => exact ⟨by simp, by simp, by simp, by simp⟩
  | optionsSet answer state =>
    exact ⟨fun h => by simp [state] at h, hs.continuing, hs.lastStop, hs.attached⟩

theorem sound_after (hs : s.Sound) (turns : List Turn) : (s.after turns).Sound := by
  induction turns generalizing s with
  | nil => exact hs
  | cons turn turns ih => exact ih ((step_take s turn).sound hs)

/-- A session that is not attaching never will be. -/
theorem Step.not_attaching (h : s.Step operation calls result t) (hs : s.state ≠ .attaching) :
    t.state ≠ .attaching := by
  rcases h.state_move with hstate | hstate
  · rwa [hstate]
  · intro ht
    rw [ht] at hstate
    cases hs' : s.state <;> simp [hs', State.successors] at hstate

/-- A session that has ended stays so. -/
theorem Step.exited (h : s.Step operation calls result t) (hs : s.state = .exited) :
    t.state = .exited := by
  rcases h.state_move with hstate | hstate
  · rwa [hstate]
  · simp [hs, State.successors] at hstate

/-- The process stays the same. -/
theorem Step.pid (h : s.Step operation calls result t) : t.pid = s.pid := by
  cases h with
  | refused | notResumed | optionsNotSet | read => rfl
  | attachStop | resumed | optionsSet => rfl
  | @attachFailed _ error =>
    obtain ⟨state, hframe⟩ := exists_afterFailedAttach_eq s error
    rw [hframe]
  | @waitFailed _ _ errno =>
    obtain ⟨state, hframe⟩ := exists_afterFailedWait_eq s errno
    rw [hframe]
  | @changed _ _ _ _ _ classified =>
    cases classified with
    | ok | error => rfl

theorem pid_after (s : Session) (turns : List Turn) : (s.after turns).pid = s.pid := by
  induction turns generalizing s with
  | nil => rfl
  | cons turn turns ih => exact (ih _).trans (step_take s turn).pid

theorem not_attaching_after (hs : s.state ≠ .attaching) (turns : List Turn) :
    (s.after turns).state ≠ .attaching := by
  induction turns generalizing s with
  | nil => exact hs
  | cons turn turns ih => exact ih ((step_take s turn).not_attaching hs)

/-- A session that is attaching still has been so all along. -/
theorem attaching_of_after {turns : List Turn} (h : (s.after turns).state = .attaching) :
    s.state = .attaching :=
  Decidable.byContradiction fun hs => not_attaching_after hs turns h

theorem exited_after (hs : s.state = .exited) (turns : List Turn) :
    (s.after turns).state = .exited := by
  induction turns generalizing s with
  | nil => exact hs
  | cons turn turns ih => exact ih ((step_take s turn).exited hs)

/-! ## Openings that wait -/

/-- The session is handed over after a wait that succeeds. -/
theorem waitOrDrop_of_ok {s : Session} {replies : List Reply} {stop : Stop}
    (h : (s.wait replies).result.1 = .ok stop) :
    s.waitOrDrop replies = (s.wait replies).withResult (.ok (s.wait replies).result.2) := by
  unfold waitOrDrop ExceptT.mk
  rw [Tracer.bind_apply]
  generalize s.wait replies = x at h ⊢
  obtain ⟨⟨result, waited⟩, calls, log, rest⟩ := x
  obtain rfl : result = .ok stop := h
  simp [Exchange.followedBy, Exchange.withResult, Tracer.pure_apply]

/-- The session is dropped after a wait that fails. -/
theorem waitOrDrop_of_error {s : Session} {replies : List Reply} {error : Error}
    (h : (s.wait replies).result.1 = .error error) :
    s.waitOrDrop replies = ((s.wait replies).followedBy
      ((s.wait replies).result.2.drop (s.wait replies).rest)).withResult (.error error) := by
  unfold waitOrDrop ExceptT.mk
  rw [Tracer.bind_apply]
  generalize s.wait replies = x at h ⊢
  obtain ⟨⟨result, waited⟩, calls, log, rest⟩ := x
  obtain rfl : result = .error error := h
  simp [Exchange.followedBy, Exchange.withResult, Tracer.pure_apply, Tracer.bind_apply]

theorem waitOrDrop_cases (s : Session) (replies : List Reply) :
    (∃ stop, (s.wait replies).result.1 = .ok stop ∧
      (s.waitOrDrop replies).calls = (s.wait replies).calls ∧
      (s.waitOrDrop replies).result = .ok (s.wait replies).result.2) ∨
    ∃ error, (s.wait replies).result.1 = .error error ∧
      (s.waitOrDrop replies).calls = (s.wait replies).calls ++
        ((s.wait replies).result.2.drop (s.wait replies).rest).calls ∧
      (s.waitOrDrop replies).result = .error error := by
  cases h : (s.wait replies).result.1 with
  | ok stop =>
    rw [waitOrDrop_of_ok h]
    exact Or.inl ⟨stop, rfl, rfl, rfl⟩
  | error error =>
    rw [waitOrDrop_of_error h]
    exact Or.inr ⟨error, rfl, rfl, rfl⟩

/-- An opening that waits makes the calls of its wait, and those of dropping the session if the wait
fails. -/
theorem calls_perform_of_waits {opening : Opening} (h : opening.waits = true) {pid : Pid}
    {replies : List Reply} {s : Session} (hbegin : (opening.begin pid replies).result = .ok s) :
    (opening.perform pid replies).calls = (opening.begin pid replies).calls ++
      (s.waitOrDrop (opening.begin pid replies).rest).calls := by
  rw [Opening.perform_of_waits h, Attempt.bind_of_ok hbegin, Exchange.calls_followedBy]

/-- A session that is handed over has just begun, or a wait of it has succeeded since. -/
theorem begun_or_waited_of_perform {opening : Opening} {pid : Pid} {replies : List Reply}
    {s : Session} (h : (opening.perform pid replies).result = .ok s) :
    (opening.waits = false ∧ s = .attaching pid) ∨
      opening.waits = true ∧ ∃ stop,
        ((Session.attaching pid).wait (opening.begin pid replies).rest).result = (.ok stop, s) := by
  cases hw : opening.waits with
  | false =>
    rw [Opening.perform_of_not_waits hw] at h
    exact Or.inl ⟨rfl, Opening.eq_attaching_of_begin h⟩
  | true =>
    rw [Opening.perform_of_waits hw] at h
    obtain ⟨begun, hb, hbind⟩ := Attempt.exists_of_bind_eq_ok h
    obtain rfl := Opening.eq_attaching_of_begin hb
    have hr := (congrArg Exchange.result hbind).symm.trans h
    rw [Exchange.result_followedBy] at hr
    rcases waitOrDrop_cases (.attaching pid) (opening.begin pid replies).rest with
      ⟨stop, hok, _, hw⟩ | ⟨error, _, _, hw⟩
    · obtain rfl := Except.ok.inj (hw.symm.trans hr)
      exact Or.inr ⟨rfl, stop, Prod.ext hok rfl⟩
    · cases hw.symm.trans hr

/-- A session begins attaching, or stopped at its attach-stop. -/
theorem eq_of_perform {opening : Opening} {pid : Pid} {replies : List Reply} {s : Session}
    (h : (opening.perform pid replies).result = .ok s) :
    s = .attaching pid ∨
      s = { Session.attaching pid with state := .stopped, lastStop := some .attach } := by
  rcases begun_or_waited_of_perform h with ⟨_, rfl⟩ | ⟨_, stop, hwaited⟩
  · exact Or.inl rfl
  · rcases wait_attaching_cases (s := .attaching pid) rfl (opening.begin pid replies).rest with
      ⟨_, hwait⟩ | ⟨error, _, hwait⟩
    · exact Or.inr (congrArg Prod.snd (hwaited.symm.trans hwait))
    · cases congrArg Prod.fst (hwaited.symm.trans hwait)

theorem sound_attaching (pid : Pid) : (Session.attaching pid).Sound :=
  ⟨fun _ => ⟨rfl, rfl, rfl⟩, fun _ => rfl, by simp [Session.attaching], by
    simp [Session.attaching]⟩

theorem sound_of_perform {opening : Opening} {pid : Pid} {replies : List Reply} {s : Session}
    (h : (opening.perform pid replies).result = .ok s) : s.Sound := by
  rcases eq_of_perform h with rfl | rfl
  · exact sound_attaching pid
  · exact ⟨by simp, by simp, by simp [Stop.isTerminal], by simp⟩

/-! ## Every run -/

/-- In every run of a session, however it begins and whatever the kernel replies, every session
reached is sound, its state moves only to a successor, it never attaches again, and it stays ended
once it has. -/
theorem sound_and_successors_of_run {opening : Opening} {pid : Pid} {replies : List Reply}
    {s : Session} (h : (opening.perform pid replies).result = .ok s) (turns : List Turn) :
    (s.after turns).Sound ∧
      (∀ turn, (s.after (turns ++ [turn])).state = (s.after turns).state ∨
        (s.after (turns ++ [turn])).state ∈ (s.after turns).state.successors) ∧
      ∀ more,
        ((s.after turns).state ≠ .attaching → (s.after (turns ++ more)).state ≠ .attaching) ∧
        ((s.after turns).state = .exited → (s.after (turns ++ more)).state = .exited) := by
  refine ⟨sound_after (sound_of_perform h) turns, fun turn => ?_, fun more => ⟨fun hs => ?_,
    fun hs => ?_⟩⟩
  · rw [after_append]
    exact (step_take _ turn).state_move
  · rw [after_append]
    exact not_attaching_after hs more
  · rw [after_append]
    exact exited_after hs more

/-- An attached tracee that had one early stop reaches a syscall-stop and then exits : the run
meets every state but the one it never can. -/
theorem sound_run_to_exit :
    let opened : List Reply :=
      [.ok {}, .ok { status := 0x0a7f }, .ok {}, .ok { status := 0x137f }, .ok {}]
    let s : Session := { Session.attaching ⟨5⟩ with state := .stopped, lastStop := some .attach }
    let turns : List Turn := [⟨.resume none, [.ok {}]⟩, ⟨.wait, [.ok { status := 0x857f }]⟩,
      ⟨.resume none, [.ok {}]⟩, ⟨.wait, [.ok { status := 0x0300 }]⟩]
    (Opening.attachStopped.perform ⟨5⟩ opened).result = .ok s ∧ (s.after turns).Sound ∧
      (s.after turns).state = .exited := by
  intro opened s turns
  have h : (Opening.attachStopped.perform ⟨5⟩ opened).result = .ok s :=
    eq_ok_of_toOption (by decide +kernel)
  exact ⟨h, (sound_and_successors_of_run h turns).1, by decide +kernel⟩

end Session

end ProcTrace
