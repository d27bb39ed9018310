import ProcTrace.Proofs.Session.Closing

/-!
# Openings and bare handshakes

A tracer that keeps no session can attach to a process and wait for its attach-stop as well : these
are the same requests without an account of them. An opening that waits makes exactly those
requests. It hands over a session exactly if they succeed, and if they fail it fails with the same
error, after dropping the session that the failed wait has left (`Opened`).

Both openings that wait begin in their own way and then wait alike, so what relates them to their
handshakes is shown once, for any beginning (`opened_of_beginning`).
-/

namespace ProcTrace.Session

/-- The session of a tracee that was just seen to stop. -/
def reached (pid : Pid) : Session :=
  { attaching pid with state := .stopped, lastStop := some .attach }

/-- What relates an opening that waits to the handshake `bare`. The opening up to its wait is
`begun`. -/
structure Opened (pid : Pid) (bare : Exchange (Except Error Unit))
    (begun opened : Exchange (Except Error Session)) : Prop where
  /-- The session is handed over if the handshake succeeds, with the calls of the handshake. -/
  succeeds : bare.result = .ok () →
    opened.result = .ok (reached pid) ∧ opened.calls = bare.calls ∧ opened.rest = bare.rest
  /-- If the handshake fails, so does the opening. -/
  fails : ∀ error, bare.result = .error error → opened.result = .error error
  /-- No call is added if there is no session yet, or if its tracee is gone. -/
  nothingAdded : ∀ error, bare.result = .error error →
    (∃ failure, begun.result = .error failure) ∨ error.traceeGone = true →
      opened.calls = bare.calls
  /-- Otherwise the session that the failed wait leaves is dropped, with the replies that are
  left. -/
  dropped : ∀ error s, bare.result = .error error → begun.result = .ok s →
    let waited := s.wait begun.rest
    waited.result.1 = .error error ∧ waited.rest = bare.rest ∧
      opened.calls = bare.calls ++ (waited.result.2.drop waited.rest).calls

variable {pid : Pid} {replies : List Reply}

/-! ## The wait -/

/-- A wait for the attach-stop leaves the replies that reaching it leaves. -/
theorem rest_wait_attaching (pid : Pid) (replies : List Reply) :
    ((attaching pid).wait replies).rest = (reachAttachStop pid replies).rest := by
  have hwait : (attaching pid).wait = (attaching pid).awaitAttachStop := rfl
  rw [hwait, awaitAttachStop, ExceptT.run, Tracer.bind_apply, Exchange.rest_followedBy]
  cases (reachAttachStop (attaching pid).pid replies).result with
  | ok | error => rfl

/-- A session that is handed over after its wait has made the calls that reach the attach-stop. -/
theorem waitOrDrop_of_reached (h : (reachAttachStop pid replies).result = .ok ()) :
    let bare := reachAttachStop pid replies
    let handed := (attaching pid).waitOrDrop replies
    handed.result = .ok (reached pid) ∧ handed.calls = bare.calls ∧ handed.rest = bare.rest := by
  intro bare handed
  obtain ⟨hcalls, hresult⟩ := awaitAttachStop_of_ok (s := attaching pid) h
  have hhanded : handed = ((attaching pid).wait replies).withResult
      (.ok ((attaching pid).wait replies).result.2) :=
    waitOrDrop_of_ok (congrArg Prod.fst hresult)
  rw [hhanded]
  refine ⟨?_, hcalls, rest_wait_attaching pid replies⟩
  exact congrArg (fun waited => Except.ok waited.2) hresult

/-- A session that misses its attach-stop is dropped after the calls that were to reach it. -/
theorem waitOrDrop_of_missed {error : Error}
    (h : (reachAttachStop pid replies).result = .error error) :
    let bare := reachAttachStop pid replies
    let waited := (attaching pid).wait replies
    let handed := (attaching pid).waitOrDrop replies
    waited.result = (.error error, (attaching pid).afterFailedAttach error) ∧
      waited.rest = bare.rest ∧ handed.result = .error error ∧
      handed.calls = bare.calls ++ (waited.result.2.drop waited.rest).calls := by
  intro bare waited handed
  obtain ⟨hcalls, hresult⟩ := awaitAttachStop_of_error (s := attaching pid) h
  have hhanded : handed = (waited.followedBy (waited.result.2.drop waited.rest)).withResult
      (.error error) :=
    waitOrDrop_of_error (congrArg Prod.fst hresult)
  refine ⟨hresult, rest_wait_attaching pid replies, ?_, ?_⟩
  · rw [hhanded, Exchange.result_withResult]
  · rw [hhanded, Exchange.calls_withResult, Exchange.calls_followedBy]
    exact congrArg (· ++ _) hcalls

/-- Dropping a session that a wait for the attach-stop has found to be over takes no call. -/
theorem calls_drop_afterFailedAttach {error : Error} (h : error.traceeGone = true)
    (replies : List Reply) :
    (((attaching pid).afterFailedAttach error).drop replies).calls = [] := by
  refine (dropped_drop _ _).eq_nil ?_
  rw [state_afterFailedAttach, if_pos h]

/-! ## Both openings -/

theorem adopt_apply (pid : Pid) (replies : List Reply) :
    adopt pid replies = ⟨.ok (attaching pid), [], [.sessionOpened pid .attaching], replies⟩ :=
  rfl

/-- However an opening begins, if it waits after that it is related to the same beginning with a
bare wait. -/
theorem opened_of_beginning (first : Attempt Unit) (pid : Pid) (replies : List Reply) :
    let begin : Attempt Session := first >>= fun _ => adopt pid
    Opened pid ((first >>= fun _ => reachAttachStop pid) replies) (begin replies)
      ((begin >>= waitOrDrop) replies) := by
  intro begin
  cases hfirst : (first replies).result with
  | error error =>
    -- Nothing follows a beginning that fails, so all three are the same.
    have hbegun : begin replies = (first replies).withResult (.error error) :=
      Attempt.bind_of_error hfirst
    have hopened : (begin >>= waitOrDrop) replies = (begin replies).withResult (.error error) :=
      Attempt.bind_of_error (congrArg Exchange.result hbegun)
    rw [Attempt.bind_of_error hfirst, hopened, hbegun]
    refine ⟨fun h => ?_, fun _ h => ?_, fun _ _ _ => rfl, fun _ _ _ h => ?_⟩
    · cases h
    · cases h
      rfl
    · cases h
  | ok u =>
    have hbegun : begin replies = (first replies).followedBy (adopt pid (first replies).rest) :=
      Attempt.bind_of_ok hfirst
    rw [adopt_apply] at hbegun
    have hcalls : (begin replies).calls = (first replies).calls := by
      rw [hbegun, Exchange.calls_followedBy, List.append_nil]
    have hresult : (begin replies).result = .ok (attaching pid) := by
      rw [hbegun, Exchange.result_followedBy]
    have hrest : (begin replies).rest = (first replies).rest := by
      rw [hbegun, Exchange.rest_followedBy]
    have hopened : (begin >>= waitOrDrop) replies =
        (begin replies).followedBy ((attaching pid).waitOrDrop (begin replies).rest) :=
      Attempt.bind_of_ok hresult
    rw [Attempt.bind_of_ok hfirst, hopened]
    refine ⟨fun hbare => ?_, fun error hbare => ?_, fun error hbare hnothing => ?_,
      fun error s hbare hs => ?_⟩
    all_goals
      simp only [Exchange.result_followedBy, Exchange.calls_followedBy, Exchange.rest_followedBy,
        hcalls, hrest] at hbare ⊢
    · obtain ⟨hhanded, hmade, hleft⟩ := waitOrDrop_of_reached hbare
      exact ⟨hhanded, congrArg _ hmade, hleft⟩
    · exact (waitOrDrop_of_missed hbare).2.2.1
    · obtain ⟨hwaited, -, -, hmade⟩ := waitOrDrop_of_missed hbare
      have hgone : error.traceeGone = true := by
        rcases hnothing with ⟨failure, hfailure⟩ | hgone
        · cases hresult.symm.trans hfailure
        · exact hgone
      rw [hmade, hwaited, calls_drop_afterFailedAttach hgone, List.append_nil]
    · obtain rfl : attaching pid = s := Except.ok.inj (hresult.symm.trans hs)
      obtain ⟨hwaited, hleft, -, hmade⟩ := waitOrDrop_of_missed hbare
      exact ⟨congrArg Prod.fst hwaited, hleft, by rw [hmade, List.append_assoc]⟩

/-- An opening that waits is a bare handshake with an account. Attaching a session and waiting
succeeds exactly if attaching and waiting without one does, with the same calls, and then the
session is stopped at its attach-stop. It fails with the same error and with the same calls, and
with those of dropping the session if there is one and its tracee is not gone. Taking over a child
is so related to the wait alone. -/
theorem opened_by_handshake (pid : Pid) (replies : List Reply) :
    Opened pid (Tracee.attachStopped pid replies) (attach pid replies)
        (attachStopped pid replies) ∧
      Opened pid (reachAttachStop pid replies) (adopt pid replies) (adoptStopped pid replies) :=
  ⟨opened_of_beginning (Tracee.attach pid) pid replies,
    opened_of_beginning (pure ()) pid replies⟩

/-- The kernel does not permit an early signal to be sent again. The session is dropped on the
replies that are left : it waits once more and detaches. -/
example :
    let replies : List Reply := [.ok {}, .ok { status := 0x0a7f }, .ok {}, .ok { status := 0x137f },
      .error .eperm, .ok { status := 0x137f }, .ok {}]
    (Tracee.attachStopped ⟨5⟩ replies).calls.map Call.request =
        [.attach ⟨5⟩, .waitpid ⟨5⟩, .cont ⟨5⟩ none, .waitpid ⟨5⟩, .kill ⟨5⟩ .usr1] ∧
      (attachStopped ⟨5⟩ replies).calls.map Call.request =
        [.attach ⟨5⟩, .waitpid ⟨5⟩, .cont ⟨5⟩ none, .waitpid ⟨5⟩, .kill ⟨5⟩ .usr1,
          .waitpid ⟨5⟩, .detach ⟨5⟩ none] := by
  decide +kernel

end ProcTrace.Session
