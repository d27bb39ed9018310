import ProcTrace.Proofs.Session.Run

/-!
# Requests that fail

A request that fails changes nothing that a session keeps account of, whichever of the calls of an
operation it is (`Step.eq_of_error`). Nor does a failed wait of a running session, unless its error
number says that the tracee is gone (`Step.eq_of_failed_wait`). So the operation can be tried again,
and all that comes later in the run is as if it had not been tried
(`run_as_if_failed_turn_not_taken`).
-/

namespace ProcTrace

namespace Session

variable {s t : Session} {operation : Operation} {calls : List Call}
  {result : Except Error Outcome} {turn : Turn}

/-! ## Steps that fail -/

/-- An operation other than a wait leaves the session as it was if it fails. -/
theorem Step.eq_of_error {error : Error} (h : s.Step operation calls result t)
    (hother : operation ≠ .wait) (herror : result = .error error) : t = s := by
  cases h with
  | refused | notResumed | optionsNotSet | read => rfl
  | resumed | optionsSet => cases herror
  | attachStop | attachFailed | waitFailed | changed => exact absurd rfl hother

/-- A running session whose wait itself fails is left as it was while the tracee is there. -/
theorem Step.eq_of_failed_wait {errno : Errno} (h : s.Step .wait calls result t)
    (hs : s.state = .continuing) (hcall : ⟨.waitpid s.pid, .error errno⟩ ∈ calls)
    (huninterrupted : errno ≠ .eintr) (hthere : errno.saysGone = false) :
    t = s ∧ result = .error (.ofErrno s.pid errno) := by
  have hnot : ¬Reply.Idle s.pid (.error errno) := huninterrupted
  cases h with
  | refused => cases hcall
  | attachStop state | attachFailed state => cases hs.symm.trans state
  | waitFailed state waits ends =>
    obtain rfl := waits.eq_of_not_idle hcall hnot
    cases ends with
    | failed status =>
      obtain rfl := Except.error.inj status
      have hchildren : errno ≠ .echild := fun h => by simp [h, Errno.saysGone] at hthere
      exact ⟨if_neg hchildren, rfl⟩
  | changed state waits ends means =>
    rcases List.mem_append.1 hcall with hcall | hcall
    · obtain rfl := waits.eq_of_not_idle hcall hnot
      cases ends with
      | changed status => cases status
    · cases means.request_eq hcall
  | read allowed reading => cases reading

/-! ## Turns that fail -/

/-- The turn fails, and not because the tracee is gone : it is no wait, or it is a wait of a running
session that fails itself. -/
inductive Fails (s : Session) (turn : Turn) : Prop
  | request {error : Error} (other : turn.operation ≠ .wait)
      (failed : (s.take turn).result.1 = .error error)
  | wait {errno : Errno} (operation : turn.operation = .wait) (running : s.state = .continuing)
      (failed : ⟨.waitpid s.pid, .error errno⟩ ∈ (s.take turn).calls)
      (uninterrupted : errno ≠ .eintr) (there : errno.saysGone = false)

/-- A turn that fails leaves the session as it was. -/
theorem Fails.unchanged (h : s.Fails turn) :
    (s.take turn).result.2 = s ∧ ∃ error, (s.take turn).result.1 = .error error := by
  have hstep := step_take s turn
  cases h with
  | request other failed => exact ⟨hstep.eq_of_error other failed, _, failed⟩
  | wait operation running failed uninterrupted there =>
    rw [operation] at hstep
    obtain ⟨hsession, hresult⟩ := hstep.eq_of_failed_wait running failed uninterrupted there
    exact ⟨hsession, _, hresult⟩

/-! ## Runs with a turn that fails -/

/-- What comes of each of some turns, one after the other. -/
def transcript : Session → List Turn → List (Exchange (Except Error Outcome × Session))
  | _, [] => []
  | s, turn :: turns => s.take turn :: (s.take turn).result.2.transcript turns

theorem length_transcript (s : Session) (turns : List Turn) :
    (s.transcript turns).length = turns.length := by
  induction turns generalizing s with
  | nil => rfl
  | cons turn turns ih => exact congrArg (· + 1) (ih _)

theorem transcript_append (s : Session) (turns more : List Turn) :
    s.transcript (turns ++ more) = s.transcript turns ++ (s.after turns).transcript more := by
  induction turns generalizing s with
  | nil => rfl
  | cons turn turns ih => exact congrArg (s.take turn :: ·) (ih _)

theorem Fails.after_cons (h : s.Fails turn) (later : List Turn) :
    s.after (turn :: later) = s.after later := by
  rw [after, h.unchanged.1]

theorem Fails.transcript_cons (h : s.Fails turn) (later : List Turn) :
    s.transcript (turn :: later) = s.take turn :: s.transcript later := by
  rw [transcript, h.unchanged.1]

theorem Step.eq_of_resumed {signal : Option Signal} {outcome : Outcome}
    (h : s.Step (.resume signal) calls result t) (hok : result = .ok outcome) :
    t = { s with state := .continuing, lastStop := none } := by
  cases h with
  | resumed => rfl
  | refused | notResumed => cases hok
  | read allowed reading => cases reading

theorem Step.eq_of_optionsSet {options : TraceOptions} {outcome : Outcome}
    (h : s.Step (.setOptions options) calls result t) (hok : result = .ok outcome) :
    t = { s with options := some options } := by
  cases h with
  | optionsSet => rfl
  | refused | optionsNotSet => cases hok
  | read allowed reading => cases reading

/-- A turn that fails, wherever it stands in a run, leaves the session as it was. What comes of all
other turns, and the session at the end, are as if it had not been taken. A restart that succeeds
changes the state and the last stop and nothing else, and setting the options changes nothing but
them. -/
theorem run_as_if_failed_turn_not_taken (s : Session) (before : List Turn) (turn : Turn)
    (later : List Turn) (h : (s.after before).Fails turn) :
    (((s.after before).take turn).result.2 = s.after before ∧
      ∃ error, ((s.after before).take turn).result.1 = .error error) ∧
    s.after (before ++ turn :: later) = s.after (before ++ later) ∧
    (s.transcript (before ++ turn :: later)).eraseIdx before.length =
      s.transcript (before ++ later) ∧
    (∀ signal replies outcome, (s.take ⟨.resume signal, replies⟩).result.1 = .ok outcome →
      (s.take ⟨.resume signal, replies⟩).result.2 =
        { s with state := .continuing, lastStop := none }) ∧
    ∀ options replies outcome, (s.take ⟨.setOptions options, replies⟩).result.1 = .ok outcome →
      (s.take ⟨.setOptions options, replies⟩).result.2 = { s with options := some options } := by
  refine ⟨h.unchanged, ?session, ?others, ?resumed, ?optionsSet⟩
  case session => rw [after_append, after_append, h.after_cons]
  case others =>
    rw [transcript_append, transcript_append, h.transcript_cons, ← length_transcript s before,
      List.eraseIdx_append_of_length_le (Nat.le_refl _), Nat.sub_self, List.eraseIdx_cons_zero]
  case resumed => exact fun signal replies outcome => (step_take s ⟨_, replies⟩).eq_of_resumed
  case optionsSet =>
    exact fun options replies outcome => (step_take s ⟨_, replies⟩).eq_of_optionsSet

/-- A wait is interrupted and then fails. The next wait is as if there had been none before. -/
theorem wait_retried_after_failure :
    let s : Session := { Session.attaching ⟨5⟩ with state := .stopped, lastStop := some .attach }
    let before : List Turn := [⟨.resume none, [.ok {}]⟩]
    let failed : Turn := ⟨.wait, [.error .eintr, .error ⟨5⟩]⟩
    let later : List Turn := [⟨.wait, [.ok { status := 0x137f }, .ok {}]⟩]
    (s.after before).Fails failed ∧
      s.after (before ++ failed :: later) = s.after (before ++ later) ∧
      (s.after (before ++ later)).lastStop = some (.signalDelivery .stop) := by
  intro s before failed later
  have h : (s.after before).Fails failed :=
    .wait rfl rfl (List.mem_cons_of_mem _ (List.mem_singleton_self _)) (by decide) rfl
  exact ⟨h, (run_as_if_failed_turn_not_taken s before failed later h).2.1, by decide +kernel⟩

end Session

end ProcTrace
