import ProcTrace.Proofs.Session.Run

/-!
# Waits that fail

An error says whether the tracee is gone, and a wait that fails has to leave the session ended
exactly if it does. While the session is attaching it is so, whichever request has failed, and so it
is if a reported change cannot be classified. But a wait of a running session that fails itself ends
the session only if the tracer has no children. If it fails because there is no such process, its
error says that the tracee is gone, and the session goes on as running
(`exited_iff_traceeGone_iff`).
-/

namespace ProcTrace

/-- A wait that fails because there is no process of that number. -/
def Call.findsNoProcess (call : Call) : Bool :=
  match call.request, call.reply with
  | .waitpid _, .error errno => errno = .esrch
  | _, _ => false

theorem Call.findsNoProcess_iff {pid : Pid} {reply : Reply} :
    findsNoProcess ⟨.waitpid pid, reply⟩ = true ↔ reply = .error .esrch := by
  cases reply with
  | ok answer => simp [findsNoProcess]
  | error errno => simp [findsNoProcess]

/-- Only the last call of a wait can find that there is no process. -/
theorem Waits.any_findsNoProcess {pid : Pid} {calls : List Call} {reply : Reply}
    (h : Waits pid calls reply) :
    calls.any Call.findsNoProcess = Call.findsNoProcess ⟨.waitpid pid, reply⟩ := by
  obtain ⟨idle, rfl, hidle⟩ := h
  have hnone : idle.any Call.findsNoProcess = false := by
    refine List.any_eq_false.2 fun call hcall hfinds => ?_
    obtain ⟨request, answered⟩ := call
    obtain ⟨hrequest, hreply⟩ := hidle _ hcall
    obtain rfl : request = .waitpid pid := hrequest
    obtain rfl : answered = .error .esrch := Call.findsNoProcess_iff.1 hfinds
    cases hreply
  rw [List.any_append, hnone, Bool.false_or, List.any_cons, List.any_nil, Bool.or_false]

/-- A wait that fails finds that there is no process exactly if its error number says so. -/
theorem Reply.Ends.findsNoProcess_iff {pid : Pid} {reply : Reply} {errno : Errno}
    (h : reply.Ends pid (.error errno)) :
    Call.findsNoProcess ⟨.waitpid pid, reply⟩ = true ↔ errno = .esrch := by
  rw [Call.findsNoProcess_iff]
  cases h with
  | failed status =>
    constructor
    · rintro rfl
      exact (Except.error.inj status).symm
    · rintro rfl
      exact (Reply.eq_error_of_waitStatus status).resolve_right (by decide)

theorem Reply.Ends.findsNoProcess_eq_false {pid : Pid} {reply : Reply} {change : Pid × Change}
    (h : reply.Ends pid (.ok change)) : Call.findsNoProcess ⟨.waitpid pid, reply⟩ = false := by
  cases h with
  | changed status =>
    refine Bool.eq_false_iff.2 fun hfinds => ?_
    obtain rfl := Call.findsNoProcess_iff.1 hfinds
    cases status

namespace Session

variable {s : Session}

/-- Finding out what a change means takes no wait. -/
theorem Classified.any_findsNoProcess {change : Change} {probe : List Call}
    {classified : Except Error (Stop × Bool)} (h : s.Classified change probe classified) :
    probe.any Call.findsNoProcess = false :=
  List.any_eq_false.2 fun call hcall => by simp [Call.findsNoProcess, h.request_eq hcall]

/-- A change that cannot be classified ends the session exactly if the tracee is gone. -/
theorem exited_settle_error_iff (s : Session) (error : Error) :
    (s.settle (.error error)).state = .exited ↔ error.traceeGone = true := by
  unfold settle
  split <;> simp_all

/-- A wait that fails leaves the session ended exactly if its error says that the tracee is gone,
unless it is a wait of a running session that fails because there is no such process. Then the error
says that the tracee is gone, and the session is as before. -/
theorem exited_iff_traceeGone_iff (hs : s.state = .attaching ∨ s.state = .continuing)
    {replies : List Reply} {error : Error} (he : (s.wait replies).result.1 = .error error) :
    (((s.wait replies).result.2.state = .exited ↔ error.traceeGone = true) ↔
        ¬(s.state = .continuing ∧ (s.wait replies).calls.any Call.findsNoProcess = true)) ∧
      (s.state = .continuing → (s.wait replies).calls.any Call.findsNoProcess = true →
        (s.wait replies).result = (.error (.noSuchProcess s.pid .esrch), s)) := by
  rcases hs with hs | hs
  · have hrunning : s.state ≠ .continuing := by simp [hs]
    refine ⟨?_, fun h => absurd h hrunning⟩
    rcases wait_attaching_cases hs replies with ⟨_, hr⟩ | ⟨failure, _, hr⟩
    · rw [hr] at he
      cases he
    · rw [hr] at he
      obtain rfl := Except.error.inj he
      rw [hr, state_afterFailedAttach]
      cases failure.traceeGone <;> simp [hs]
  · rcases wait_continuing_cases hs replies with
      ⟨reply, errno, hwaits, hends, hr⟩ | ⟨_, _, _, _, _, classified, hwaits, hends, hmeans, hc, hr⟩
    · rw [hr] at he
      obtain rfl := Except.error.inj he
      have hnone : Errno.esrch ≠ .echild := by decide
      rw [hwaits.any_findsNoProcess, hends.findsNoProcess_iff, hr, state_afterFailedWait,
        Error.traceeGone_ofErrno]
      refine ⟨?_, ?_⟩
      · by_cases hgone : errno = .echild
        · simp [hs, hgone, hnone.symm]
        · simp [hs, hgone]
      · rintro - rfl
        rfl
    · rw [hr] at he
      cases classified with
      | ok c => cases he
      | error failure =>
        obtain rfl := Except.error.inj he
        rw [hc, List.any_append, hwaits.any_findsNoProcess, hends.findsNoProcess_eq_false,
          hmeans.any_findsNoProcess, hr]
        simp only [exited_settle_error_iff, hs]
        simp

/-- A stop that cannot be classified, as the tracee is gone when the origin of its signal is asked
for, ends the session. -/
theorem exited_of_stop_found_gone :
    let s : Session := ⟨⟨5⟩, .continuing, none, none, false⟩
    let replies : List Reply := [.error .eintr, .ok { status := 0x137f }, .error .esrch]
    let error : Error := .noSuchProcess ⟨5⟩ .esrch
    (s.wait replies).result.1 = .error error ∧ ((s.wait replies).result.2.state = .exited ↔
      error.traceeGone = true) := by
  intro s replies error
  have herror : (s.wait replies).result.1 = .error error := rfl
  exact ⟨herror, (exited_iff_traceeGone_iff (Or.inr rfl) herror).1.2 (by decide +kernel)⟩

/-- A running session waits and there is no such process. The error says that the tracee is gone,
and the session goes on as running. -/
theorem continuing_after_wait_found_no_process :
    let s : Session := ⟨⟨5⟩, .continuing, none, none, false⟩
    let waited := s.wait [.error .esrch]
    let error : Error := .noSuchProcess ⟨5⟩ .esrch
    waited.result = (.error error, s) ∧ error.traceeGone = true ∧
      waited.result.2.state = .continuing := by
  intro s waited error
  exact ⟨rfl, rfl, rfl⟩

end Session

end ProcTrace
