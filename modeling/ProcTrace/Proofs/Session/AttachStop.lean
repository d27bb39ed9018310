import ProcTrace.Proofs.Session.Closing

/-!
# The attach-stop is seen once

A wait that sees the attach-stop still has signals to send again before it succeeds. If the kernel
refuses one of them for another reason than that the tracee is gone, the wait fails and the session
is attaching as before, although its attach-stop is used up (`AttachStopLost`) : whatever comes next
waits for the attach-stop once more. In all other cases the session is stopped, or has ended with
its tracee, and no attach-stop is waited for again (`AttachStopDone`).
`attachStopDone_iff_no_signal_refused` tells the two apart by the calls of the wait.
-/

namespace ProcTrace

/-- A wait that saw the attach-stop. -/
def Call.showsAttachStop (call : Call) : Bool :=
  call.change? = some (.stopped .attachStop)

/-- A signal that was not sent, although the tracee is not gone. -/
def Call.refusesSignal (call : Call) : Bool :=
  match call.request, call.reply with
  | .kill _ _, .error errno => !errno.saysGone
  | _, _ => false

theorem any_refusesSignal_eq_false {calls : List Call}
    (h : ∀ call ∈ calls, ∀ pid signal errno, call ≠ ⟨.kill pid signal, .error errno⟩) :
    calls.any Call.refusesSignal = false := by
  refine List.any_eq_false.2 fun call hcall hrefuses => ?_
  obtain ⟨request, reply⟩ := call
  unfold Call.refusesSignal at hrefuses
  split at hrefuses
  next pid signal errno hrequest hreply =>
    obtain rfl : request = .kill pid signal := hrequest
    obtain rfl : reply = .error errno := hreply
    exact h _ hcall pid signal errno rfl
  next => cases hrefuses

theorem Call.refusesSignal_kill (pid : Pid) (signal : Signal) {errno : Errno} :
    Call.refusesSignal ⟨.kill pid signal, .error errno⟩ = true ↔
      (Error.ofErrno pid errno).traceeGone = false := by
  rw [Error.traceeGone_ofErrno_eq]
  simp [refusesSignal]

theorem EarlyStops.any_refusesSignal {pid : Pid} {calls : List Call} {signals : List Signal}
    (h : EarlyStops pid calls signals) : calls.any Call.refusesSignal = false := by
  refine any_refusesSignal_eq_false fun call hcall pid signal errno hkill => ?_
  rcases (h.of_mem hcall).1 with hrequest | hrequest <;> simp [hkill] at hrequest

theorem StopSeen.any_refusesSignal {pid : Pid} {calls : List Call} {report : StopReport}
    (h : StopSeen pid calls report) : calls.any Call.refusesSignal = false := by
  refine any_refusesSignal_eq_false fun call hcall pid signal errno hkill => ?_
  have hrequest := h.request hcall
  simp [hkill] at hrequest

theorem Requeued.any_refusesSignal {pid : Pid} {calls : List Call} {signals : List Signal}
    (h : Requeued pid signals calls) : calls.any Call.refusesSignal = false := by
  refine any_refusesSignal_eq_false fun call hcall pid signal errno hkill => ?_
  obtain ⟨_, answer, hsent⟩ := h.of_mem hcall
  simp [hsent] at hkill

/-- A phase that sees the attach-stop succeeds, or fails with the error of a signal that could not
be sent. -/
theorem AttachPhase.of_showsAttachStop {pid : Pid} {calls : List Call} {result : Except Error Unit}
    (h : AttachPhase pid calls result) (hseen : calls.any Call.showsAttachStop = true) :
    (result = .ok () ∧ calls.any Call.refusesSignal = false) ∨
      ∃ error, result = .error error ∧
        (calls.any Call.refusesSignal = true ↔ error.traceeGone = false) := by
  cases h with
  | missed missed =>
    obtain ⟨call, hcall, hshows⟩ := List.any_eq_true.1 hseen
    exact absurd (of_decide_eq_true hshows) (missed.change?_ne hcall)
  | reached stops seen sent =>
    refine Or.inl ⟨rfl, ?_⟩
    rw [List.any_append, List.any_append, stops.any_refusesSignal, seen.any_refusesSignal,
      sent.any_refusesSignal]
    rfl
  | refused stops seen sent =>
    refine Or.inr ⟨_, rfl, ?_⟩
    rw [List.any_append, List.any_append, List.any_append, stops.any_refusesSignal,
      seen.any_refusesSignal, sent.any_refusesSignal, Bool.false_or, Bool.false_or, Bool.false_or,
      List.any_cons, List.any_nil, Bool.or_false]
    exact Call.refusesSignal_kill _ _

namespace Session

/-- The wait has dealt with the attach-stop for good. -/
structure AttachStopDone (s : Session) (replies : List Reply) : Prop where
  /-- The session is stopped, or the wait failed because the tracee is gone. -/
  outcome : ((s.wait replies).result.1 = .ok .attach ∧
      (s.wait replies).result.2.state = .stopped) ∨
    ∃ error, (s.wait replies).result.1 = .error error ∧ error.traceeGone = true ∧
      (s.wait replies).result.2.state = .exited
  /-- The session never attaches again. -/
  later : ∀ turns, ((s.wait replies).result.2.after turns).state ≠ .attaching
  /-- Whenever it ends, it asks for nothing but to detach a stopped tracee. -/
  closing : ∀ (turns : List Turn) (closing : Closing) (more : List Reply),
    let t := (s.wait replies).result.2.after turns
    (closing.calls t more).map Call.request =
      if t.state = .stopped then [.detach s.pid none] else []
  /-- An opening that makes this wait asks for nothing after it. -/
  opening : ∀ {opening : Opening} {pid : Pid} {earlier : List Reply}, opening.waits = true →
    (opening.begin pid earlier).result = .ok s → (opening.begin pid earlier).rest = replies →
    (opening.perform pid earlier).calls =
      (opening.begin pid earlier).calls ++ (s.wait replies).calls

/-- The wait has lost the attach-stop, and another wait for it follows. -/
structure AttachStopLost (s : Session) (replies : List Reply) : Prop where
  /-- The session is as if it had not waited. -/
  kept : (s.wait replies).result.2 = s
  /-- The error does not say that the tracee is gone. -/
  failed : ∃ error, (s.wait replies).result.1 = .error error ∧ error.traceeGone = false
  /-- If the session ends now, it waits. -/
  closing : ∀ (closing : Closing) (more : List Reply),
    ∃ reply rest, closing.calls s more = ⟨.waitpid s.pid, reply⟩ :: rest
  /-- An opening that makes this wait goes on to another wait. -/
  opening : ∀ {opening : Opening} {pid : Pid} {earlier : List Reply}, opening.waits = true →
    (opening.begin pid earlier).result = .ok s → (opening.begin pid earlier).rest = replies →
    ∃ reply rest, (opening.perform pid earlier).calls = (opening.begin pid earlier).calls ++
      ((s.wait replies).calls ++ ⟨.waitpid s.pid, reply⟩ :: rest)

variable {s : Session} {replies : List Reply}

/-- What follows from how the wait ended, if the tracee was stopped or is gone. -/
theorem attachStopDone_of_outcome
    (outcome : ((s.wait replies).result.1 = .ok .attach ∧
        (s.wait replies).result.2.state = .stopped) ∨
      ∃ error, (s.wait replies).result.1 = .error error ∧ error.traceeGone = true ∧
        (s.wait replies).result.2.state = .exited) : s.AttachStopDone replies := by
  have hstate : (s.wait replies).result.2.state ≠ .attaching := by
    rcases outcome with ⟨_, h⟩ | ⟨_, _, _, h⟩ <;> simp [h]
  have hpid : (s.wait replies).result.2.pid = s.pid := (step_wait s replies).pid
  refine ⟨outcome, not_attaching_after hstate, fun turns closing more => ?_, ?_⟩
  · have hdropped := closing.dropped ((s.wait replies).result.2.after turns) more
    have h := hdropped.requests_of_not_attaching (not_attaching_after hstate turns)
    rwa [pid_after, hpid] at h
  · intro opening pid earlier hwaits hbegin hrest
    rw [calls_perform_of_waits hwaits hbegin, hrest]
    rcases outcome with ⟨hok, _⟩ | ⟨_, _, _, hexited⟩
    · rw [calls_waitOrDrop_of_ok hok]
    · rw [calls_waitOrDrop_of_exited hexited]

theorem attachStopLost_of_failed (hs : s.state = .attaching)
    (kept : (s.wait replies).result.2 = s)
    (failed : ∃ error, (s.wait replies).result.1 = .error error ∧ error.traceeGone = false) :
    s.AttachStopLost replies := by
  refine ⟨kept, failed, fun closing more => (closing.dropped s more).exists_wait_of_attaching hs,
    ?_⟩
  intro opening pid earlier hwaits hbegin hrest
  rw [calls_perform_of_waits hwaits hbegin, hrest]
  obtain ⟨error, herror, _⟩ := failed
  rcases waitOrDrop_cases s replies with ⟨_, hok, _⟩ | ⟨_, _, hc, _⟩
  · cases herror.symm.trans hok
  · obtain ⟨reply, rest, hdrop⟩ :=
      (s.dropped_drop (s.wait replies).rest).exists_wait_of_attaching hs
    refine ⟨reply, rest, ?_⟩
    rw [hc, kept, hdrop]

theorem AttachStopDone.not_lost (h : s.AttachStopDone replies) (hs : s.state = .attaching) :
    ¬s.AttachStopLost replies := by
  intro hlost
  have hstate := h.later []
  rw [hlost.kept] at hstate
  exact hstate hs

theorem attachStopDone_of_not_refused (hs : s.state = .attaching)
    (hseen : (s.wait replies).calls.any Call.showsAttachStop = true)
    (hsent : (s.wait replies).calls.any Call.refusesSignal = false) : s.AttachStopDone replies := by
  refine attachStopDone_of_outcome ?_
  rcases wait_attaching_cases hs replies with ⟨_, hr⟩ | ⟨error, hphase, hr⟩
  · exact Or.inl ⟨congrArg Prod.fst hr, by rw [hr]⟩
  · rcases hphase.of_showsAttachStop hseen with ⟨hok, _⟩ | ⟨_, herror, hiff⟩
    · cases hok
    · cases herror
      have hgone : error.traceeGone = true := by
        cases hg : error.traceeGone with
        | false => simp [hiff.2 hg] at hsent
        | true => rfl
      refine Or.inr ⟨error, congrArg Prod.fst hr, hgone, ?_⟩
      rw [hr, state_afterFailedAttach, if_pos hgone]

theorem attachStopLost_of_refused (hs : s.state = .attaching)
    (hseen : (s.wait replies).calls.any Call.showsAttachStop = true)
    (hrefused : (s.wait replies).calls.any Call.refusesSignal = true) :
    s.AttachStopLost replies := by
  rcases wait_attaching_cases hs replies with ⟨hphase, _⟩ | ⟨error, hphase, hr⟩
  · rcases hphase.of_showsAttachStop hseen with ⟨_, hsent⟩ | ⟨_, herror, _⟩
    · simp [hsent] at hrefused
    · cases herror
  · rcases hphase.of_showsAttachStop hseen with ⟨hok, _⟩ | ⟨_, herror, hiff⟩
    · cases hok
    · cases herror
      have hthere := hiff.1 hrefused
      refine attachStopLost_of_failed hs ?_ ⟨error, congrArg Prod.fst hr, hthere⟩
      rw [hr, afterFailedAttach, hthere]
      rfl

/-- A wait of an attaching session that sees the attach-stop has dealt with it for good exactly if
no signal was refused by a tracee that is not gone. Otherwise the attach-stop is lost. -/
theorem attachStopDone_iff_no_signal_refused (hs : s.state = .attaching)
    (hseen : (s.wait replies).calls.any Call.showsAttachStop = true) :
    (s.AttachStopDone replies ↔ (s.wait replies).calls.any Call.refusesSignal = false) ∧
      ((s.wait replies).calls.any Call.refusesSignal = true → s.AttachStopLost replies) := by
  refine ⟨⟨fun hdone => ?_, attachStopDone_of_not_refused hs hseen⟩,
    attachStopLost_of_refused hs hseen⟩
  cases hrefused : (s.wait replies).calls.any Call.refusesSignal with
  | false => rfl
  | true => exact absurd (attachStopLost_of_refused hs hseen hrefused) (hdone.not_lost hs)

/-- An early signal was sent again, so the attach-stop is dealt with. -/
theorem attachStopDone_of_early_signal :
    let s : Session := .attaching ⟨5⟩
    let replies : List Reply := [.ok { status := 0x0a7f }, .ok {}, .ok { status := 0x137f }, .ok {}]
    (s.wait replies).calls.any Call.showsAttachStop = true ∧ s.AttachStopDone replies := by
  intro s replies
  have hseen : (s.wait replies).calls.any Call.showsAttachStop = true := by decide +kernel
  exact ⟨hseen, (attachStopDone_iff_no_signal_refused rfl hseen).1.2 (by decide +kernel)⟩

/-- The kernel does not permit an early signal to be sent again : the attach-stop was seen, the
session is attaching still, and dropping it waits for the attach-stop once more. -/
theorem attaching_after_refused_signal :
    let s : Session := .attaching ⟨5⟩
    let replies : List Reply :=
      [.ok { status := 0x0a7f }, .ok {}, .ok { status := 0x137f }, .error .eperm]
    (s.wait replies).calls.any Call.showsAttachStop = true ∧
      (s.wait replies).result.2.state = .attaching ∧
      ((s.wait replies).result.2.drop []).calls.map Call.request = [.waitpid ⟨5⟩] := by
  intro s replies
  exact ⟨by decide +kernel, by decide +kernel, by decide +kernel⟩

end Session

end ProcTrace
