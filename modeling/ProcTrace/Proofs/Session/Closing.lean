import ProcTrace.Proofs.Session.Run

/-!
# How a session ends

A session ends by detaching or by being dropped. Either way the tracee is detached if it is stopped,
or once its attach-stop is seen if the session is attaching, and nothing is asked for in any other
state. `Dropped` lists the transcripts, and `Closing.dropped` says that there are no others.
-/

namespace ProcTrace

/-- The ways in which a session ends. -/
inductive Closing
  | detach | drop
  deriving DecidableEq, Repr

namespace Session

/-- The transcripts of ending the session. -/
inductive Dropped (s : Session) : List Call → Prop
  | detached (reply : Reply) (state : s.state = .stopped) :
      Dropped s [⟨.detach s.pid none, reply⟩]
  | missed {calls : List Call} {error : Error} (state : s.state = .attaching)
      (phase : AttachPhase s.pid calls (.error error)) : Dropped s calls
  | reached {calls : List Call} (reply : Reply) (state : s.state = .attaching)
      (phase : AttachPhase s.pid calls (.ok ())) :
      Dropped s (calls ++ [⟨.detach s.pid none, reply⟩])
  | left (attaching : s.state ≠ .attaching) (stopped : s.state ≠ .stopped) : Dropped s []

theorem exists_calls_detach (pid : Pid) (replies : List Reply) :
    ∃ reply, (Tracee.detach pid replies).calls = [⟨.detach pid none, reply⟩] := by
  rcases Attempt.note_command_cases (.detaching pid) pid (.detach pid none) replies with
    ⟨answer, hc, _⟩ | ⟨errno, hc, _⟩
  · exact ⟨_, hc⟩
  · exact ⟨_, hc⟩

/-- What is logged about a failure is no call. -/
theorem calls_detachDropped (s : Session) (silent : Error → Bool) (x : Attempt Unit)
    (replies : List Reply) : (s.detachDropped silent x replies).calls = (x replies).calls := by
  unfold detachDropped ExceptT.run
  rw [Tracer.bind_apply, Exchange.calls_followedBy]
  cases (x replies).result with
  | ok u => exact List.append_nil _
  | error error =>
    dsimp only
    split
    · exact List.append_nil _
    · exact List.append_nil _

theorem dropped_drop (s : Session) (replies : List Reply) : s.Dropped (s.drop replies).calls := by
  cases hs : s.state with
  | stopped =>
    have hdrop : s.drop = s.detachDropped (fun _ => false) (Tracee.detach s.pid) := by
      simp only [drop, hs]
    obtain ⟨reply, hc⟩ := exists_calls_detach s.pid replies
    rw [hdrop, calls_detachDropped, hc]
    exact .detached reply hs
  | attaching =>
    have hdrop : s.drop = s.detachDropped Error.traceeGone
        (reachAttachStop s.pid >>= fun _ => Tracee.detach s.pid) := by
      simp only [drop, hs]
    have hphase := attachPhase_reachAttachStop s.pid replies
    rw [hdrop, calls_detachDropped]
    cases hr : (reachAttachStop s.pid replies).result with
    | ok u =>
      obtain ⟨reply, hc⟩ := exists_calls_detach s.pid (reachAttachStop s.pid replies).rest
      rw [hr] at hphase
      rw [Attempt.bind_of_ok hr, Exchange.calls_followedBy, hc]
      exact .reached reply hs hphase
    | error error =>
      rw [hr] at hphase
      rw [Attempt.bind_of_error hr, Exchange.calls_withResult]
      exact .missed hs hphase
  | continuing =>
    have hdrop : s.drop = Tracer.note (.droppedRunning s.pid) := by simp only [drop, hs]
    rw [hdrop]
    exact .left (by simp [hs]) (by simp [hs])
  | detached | exited =>
    have hdrop : s.drop = pure () := by simp only [drop, hs]
    rw [hdrop]
    exact .left (by simp [hs]) (by simp [hs])

theorem dropped_detach (s : Session) (replies : List Reply) :
    s.Dropped (s.detach replies).calls := by
  by_cases hs : s.state = .stopped
  · obtain ⟨reply, hc⟩ := exists_calls_detach s.pid replies
    rw [detach, if_pos hs, hc]
    exact .detached reply hs
  · have hc : (s.detach replies).calls = (s.drop replies).calls := by
      rw [detach, if_neg hs]
      exact List.append_nil _
    rw [hc]
    exact dropped_drop s replies

/-- A session that is not attaching ends with one request to detach if it is stopped, and with none
if it is not. -/
theorem Dropped.requests_of_not_attaching {s : Session} {calls : List Call} (h : s.Dropped calls)
    (hs : s.state ≠ .attaching) :
    calls.map Call.request = if s.state = .stopped then [.detach s.pid none] else [] := by
  cases h with
  | detached reply state => rw [if_pos state, List.map_singleton]
  | missed state | reached _ state => exact absurd state hs
  | left attaching stopped => rw [if_neg stopped, List.map_nil]

/-- A session that has ended asks for nothing when it closes. -/
theorem Dropped.eq_nil {s : Session} {calls : List Call} (h : s.Dropped calls)
    (hs : s.state = .exited) : calls = [] := by
  cases h with
  | detached _ state | missed state | reached _ state => cases hs.symm.trans state
  | left => rfl

/-- A session that is attaching ends only after one more wait at least. -/
theorem Dropped.exists_wait_of_attaching {s : Session} {calls : List Call} (h : s.Dropped calls)
    (hs : s.state = .attaching) : ∃ reply rest, calls = ⟨.waitpid s.pid, reply⟩ :: rest := by
  cases h with
  | detached reply state => simp [hs] at state
  | missed state phase => exact phase.exists_wait
  | reached reply state phase =>
    obtain ⟨first, rest, rfl⟩ := phase.exists_wait
    exact ⟨first, _, rfl⟩
  | left attaching => exact absurd hs attaching

/-! ## Openings that fail -/

theorem calls_waitOrDrop_of_ok {s : Session} {replies : List Reply} {stop : Stop}
    (h : (s.wait replies).result.1 = .ok stop) :
    (s.waitOrDrop replies).calls = (s.wait replies).calls := by
  rw [waitOrDrop_of_ok h, Exchange.calls_withResult]

/-- A session that a wait has ended is dropped without a call. -/
theorem calls_waitOrDrop_of_exited {s : Session} {replies : List Reply}
    (h : (s.wait replies).result.2.state = .exited) :
    (s.waitOrDrop replies).calls = (s.wait replies).calls := by
  rcases waitOrDrop_cases s replies with ⟨_, _, hc, _⟩ | ⟨_, _, hc, _⟩
  · exact hc
  · rw [hc, (dropped_drop _ _).eq_nil h, List.append_nil]

/-- An attaching session that a wait has ended is not handed over. -/
theorem exists_error_of_exited_wait {s : Session} (hs : s.state = .attaching)
    {replies : List Reply} (h : (s.wait replies).result.2.state = .exited) :
    ∃ error, (s.waitOrDrop replies).result = .error error := by
  rcases waitOrDrop_cases s replies with ⟨stop, hok, _⟩ | ⟨error, _, _, hr⟩
  · rcases wait_attaching_cases hs replies with ⟨_, hx⟩ | ⟨_, _, hx⟩
    · simp [hx] at h
    · simp [hx] at hok
  · exact ⟨error, hr⟩

end Session

/-! ## Closings -/

/-- The calls that ending a session makes. -/
def Closing.calls (closing : Closing) (s : Session) (replies : List Reply) : List Call :=
  match closing with
  | detach => (s.detach replies).calls
  | drop => (s.drop replies).calls

theorem Closing.dropped (closing : Closing) (s : Session) (replies : List Reply) :
    s.Dropped (closing.calls s replies) := by
  cases closing with
  | detach => exact s.dropped_detach replies
  | drop => exact s.dropped_drop replies

end ProcTrace
