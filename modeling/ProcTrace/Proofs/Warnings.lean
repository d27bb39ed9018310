import ProcTrace.Proofs.Quiet

/-!
# What dropping a session warns of

A session that is dropped lets its tracee go if it can. `Parted` lists, state by state, the calls
that this takes and the warnings that come of it : there is one if the tracee cannot be let go,
unless it is gone anyway. Nothing else warns. Whatever a caller asks for, the warnings are those of
the session that is dropped on the way, if there is one (`Action.left?`).

So a tracee does not stay behind unnoticed. A session that ends itself was told that its tracee is
gone, and one that is dropped is told so, or lets its tracee go, or warns (`Parted.accounted`).
-/

namespace ProcTrace

/-! ## Dropping -/

namespace Session

variable {s : Session} {replies : List Reply} {calls : List Call} {warnings : List Record}

/-- What comes of dropping the session : the calls that are made and the warnings. -/
inductive Parted (s : Session) (replies : List Reply) : List Call → List Record → Prop
  | letGo (answer : Answer) (state : s.state = .stopped) :
      Parted s replies [⟨.detach s.pid none, .ok answer⟩] []
  | kept (errno : Errno) (state : s.state = .stopped) :
      Parted s replies [⟨.detach s.pid none, .error errno⟩]
        [.detachFailed s.pid (.ofErrno s.pid errno)]
  /-- The attach-stop is seen, and then the tracee is let go. -/
  | reached (answer : Answer) (state : s.state = .attaching)
      (attachStop : (reachAttachStop s.pid replies).result = .ok ()) :
      Parted s replies
        ((reachAttachStop s.pid replies).calls ++ [⟨.detach s.pid none, .ok answer⟩]) []
  /-- The attach-stop is seen, but the tracee cannot be let go. -/
  | reachedKept (errno : Errno) (state : s.state = .attaching)
      (attachStop : (reachAttachStop s.pid replies).result = .ok ()) :
      Parted s replies
        ((reachAttachStop s.pid replies).calls ++ [⟨.detach s.pid none, .error errno⟩])
        (if errno.saysGone then [] else [.detachFailed s.pid (.ofErrno s.pid errno)])
  /-- The attach-stop is not seen, and the tracee is not asked to go. -/
  | missed (error : Error) (state : s.state = .attaching)
      (failed : (reachAttachStop s.pid replies).result = .error error) :
      Parted s replies (reachAttachStop s.pid replies).calls
        (if error.traceeGone then [] else [.detachFailed s.pid error])
  | running (state : s.state = .continuing) : Parted s replies [] [.droppedRunning s.pid]
  | ended (state : s.state = .detached ∨ s.state = .exited) : Parted s replies [] []

/-- The warnings about a tracee that had to be let go. -/
def failureWarnings (s : Session) (silent : Error → Bool) : Except Error Unit → List Record
  | .ok () => []
  | .error error => if silent error then [] else [.detachFailed s.pid error]

theorem warnings_detachDropped (s : Session) (silent : Error → Bool) {x : Attempt Unit}
    (hx : x.Quiet) (replies : List Reply) :
    (s.detachDropped silent x replies).warnings =
      s.failureWarnings silent (x replies).result := by
  have hquiet : (x replies).warnings = [] := hx replies
  unfold detachDropped ExceptT.run
  rw [Tracer.bind_apply, Exchange.warnings_followedBy, hquiet, List.nil_append]
  cases (x replies).result with
  | ok u => rfl
  | error error =>
    dsimp only [failureWarnings]
    split
    · rfl
    · rfl

theorem parted_drop (s : Session) (replies : List Reply) :
    s.Parted replies (s.drop replies).calls (s.drop replies).warnings := by
  have hdetached (replies : List Reply) :=
    Attempt.note_command_cases (.detaching s.pid) s.pid (.detach s.pid none) replies
  cases hs : s.state with
  | stopped =>
    have hdrop : s.drop = s.detachDropped (fun _ => false) (Tracee.detach s.pid) := by
      simp only [drop, hs]
    rw [hdrop, calls_detachDropped, warnings_detachDropped _ _ (inherited_quiet s.pid).detach]
    rcases hdetached replies with ⟨answer, hc, hr⟩ | ⟨errno, hc, hr⟩
    · rw [Tracee.detach, hc, hr]
      exact .letGo answer hs
    · rw [Tracee.detach, hc, hr]
      exact .kept errno hs
  | attaching =>
    have hdrop : s.drop = s.detachDropped Error.traceeGone
        (reachAttachStop s.pid >>= fun _ => Tracee.detach s.pid) := by
      simp only [drop, hs]
    rw [hdrop, calls_detachDropped, warnings_detachDropped _ _
      ((inherited_quiet s.pid).reachAttachStop.bind fun _ => (inherited_quiet s.pid).detach)]
    cases hreached : (reachAttachStop s.pid replies).result with
    | ok u =>
      rw [Attempt.bind_of_ok hreached, Exchange.calls_followedBy, Exchange.result_followedBy]
      rcases hdetached (reachAttachStop s.pid replies).rest with
        ⟨answer, hc, hr⟩ | ⟨errno, hc, hr⟩
      · rw [Tracee.detach, hc, hr]
        exact .reached answer hs hreached
      · rw [Tracee.detach, hc, hr, failureWarnings, Error.traceeGone_ofErrno_eq]
        exact .reachedKept errno hs hreached
    | error error =>
      rw [Attempt.bind_of_error hreached, Exchange.calls_withResult, Exchange.result_withResult]
      exact .missed error hs hreached
  | continuing =>
    have hdrop : s.drop = Tracer.note (.droppedRunning s.pid) := by simp only [drop, hs]
    rw [hdrop]
    exact .running hs
  | detached =>
    have hdrop : s.drop = pure () := by simp only [drop, hs]
    rw [hdrop]
    exact .ended (.inl hs)
  | exited =>
    have hdrop : s.drop = pure () := by simp only [drop, hs]
    rw [hdrop]
    exact .ended (.inr hs)

end Session

/-- The call has let the tracee go. -/
def Call.releases (call : Call) : Bool :=
  match call.request, call.reply with
  | .detach _ _, .ok _ => true
  | _, _ => false

namespace Session

variable {s : Session} {replies : List Reply} {calls : List Call} {warnings : List Record}

/-- Dropping a session that has not ended leaves no living tracee behind without a warning. -/
theorem Parted.accounted (h : s.Parted replies calls warnings) (hdetached : s.state ≠ .detached)
    (hexited : s.state ≠ .exited) :
    (∃ call ∈ calls, call.tellsGone = true) ∨ (∃ call ∈ calls, call.releases = true) ∨
      ∃ warning, warnings = [warning] := by
  cases h with
  | letGo answer => exact .inr (.inl ⟨_, List.mem_singleton_self _, rfl⟩)
  | kept | running => exact .inr (.inr ⟨_, rfl⟩)
  | reached answer => exact .inr (.inl ⟨_, List.mem_concat_self, rfl⟩)
  | reachedKept errno =>
    cases hgone : errno.saysGone with
    | true => exact .inl ⟨_, List.mem_concat_self, hgone⟩
    | false => exact .inr (.inr ⟨_, rfl⟩)
  | missed error state failed =>
    cases hgone : error.traceeGone with
    | true =>
      have hphase := attachPhase_reachAttachStop s.pid replies
      rw [failed] at hphase
      exact .inl (hphase.foundGone hgone).exists_tellsGone
    | false => exact .inr (.inr ⟨_, rfl⟩)
  | ended state =>
    rcases state with state | state
    · exact absurd state hdetached
    · exact absurd state hexited

/-- A stopped session that detaches is not dropped. Its caller is told if the tracee stays. -/
theorem released_or_reported_detach (hs : s.state = .stopped) (replies : List Reply) :
    (∃ call ∈ (s.detach replies).calls, call.releases = true) ∨
      ∃ error, (s.detach replies).result = .error error := by
  rw [detach, if_pos hs, Tracee.detach]
  rcases Attempt.note_command_cases (.detaching s.pid) s.pid (.detach s.pid none) replies with
    ⟨answer, hc, _⟩ | ⟨errno, _, hr⟩
  · rw [hc]
    exact .inl ⟨_, List.mem_singleton_self _, rfl⟩
  · exact .inr ⟨_, hr⟩

end Session

/-! ## Sessions that are left -/

/-- The session that the opening drops, if it does, with the replies that are left for that. -/
def Opening.left? (opening : Opening) (pid : Pid) (replies : List Reply) :
    Option (Session × List Reply) :=
  match opening.waits, (opening.begin pid replies).result with
  | true, .ok s =>
    let waited := s.wait (opening.begin pid replies).rest
    match waited.result.1 with
    | .ok _ => none
    | .error _ => some (waited.result.2, waited.rest)
  | _, _ => none

/-- The session that is dropped in the course of the action, with the replies that are left. -/
def Action.left? (replies : List Reply) : Action → Option (Session × List Reply)
  | installedFilters pid _ => Opening.attachStopped.left? pid replies
  | begin opening pid => opening.left? pid replies
  | close s => if s.state = .stopped then none else some (s, replies)
  | _ => none

/-- What comes of dropping a session that is left, if there is one. -/
def partingOf : Option (Session × List Reply) → List Call × List Record
  | some (s, replies) => ((s.drop replies).calls, (s.drop replies).warnings)
  | none => ([], [])

theorem Opening.dropped_eq (opening : Opening) (pid : Pid) (replies : List Reply) :
    opening.dropped pid replies = (partingOf (opening.left? pid replies)).1 := by
  cases hw : opening.waits with
  | false => simp only [dropped, left?, hw, partingOf]
  | true =>
    cases hr : (opening.begin pid replies).result with
    | error error => simp only [dropped, left?, hw, hr, partingOf]
    | ok s =>
      cases hwaited : (s.wait (opening.begin pid replies).rest).result.1 with
      | ok stop => simp only [dropped, left?, hw, hr, hwaited, partingOf]
      | error error => simp only [dropped, left?, hw, hr, hwaited, partingOf]

theorem Action.dropped_eq (action : Action) (replies : List Reply) :
    action.dropped replies = (partingOf (action.left? replies)).1 := by
  cases action with
  | installedFilters pid limit => exact Opening.dropped_eq _ pid replies
  | begin opening pid => exact opening.dropped_eq pid replies
  | close s =>
    rw [dropped, left?]
    split
    · rfl
    · rfl
  | _ => rfl

/-- An opening warns of nothing but what comes of dropping its session. -/
theorem Opening.warnings_perform (opening : Opening) (pid : Pid) (replies : List Reply) :
    (opening.perform pid replies).warnings = (partingOf (opening.left? pid replies)).2 := by
  have hbegin : (opening.begin pid replies).warnings = [] := opening.quiet_begin pid replies
  unfold left?
  cases hw : opening.waits with
  | false =>
    rw [perform_of_not_waits hw, hbegin]
    rfl
  | true =>
    rw [perform_of_waits hw]
    cases hr : (opening.begin pid replies).result with
    | error error =>
      rw [Attempt.bind_of_error hr, Exchange.warnings_withResult, hbegin]
      rfl
    | ok s =>
      have hwait : (s.wait (opening.begin pid replies).rest).warnings = [] := s.quiet_wait _
      rw [Attempt.bind_of_ok hr, Exchange.warnings_followedBy, hbegin, List.nil_append]
      dsimp only
      cases hwaited : (s.wait (opening.begin pid replies).rest).result.1 with
      | ok stop =>
        rw [Session.waitOrDrop_of_ok hwaited, Exchange.warnings_withResult, hwait]
        rfl
      | error error =>
        rw [Session.waitOrDrop_of_error hwaited, Exchange.warnings_withResult,
          Exchange.warnings_followedBy, hwait]
        rfl

theorem quiet_reportFilters (pid : Pid) (filters : Except Error (List SeccompFilter))
    (detached : Except Error Unit) : Attempt.Quiet (reportFilters pid filters detached) := by
  match filters, detached with
  | .ok _, .ok () =>
    exact (Attempt.quiet_note (by simp [Record.level])).bind fun _ => Attempt.quiet_pure _
  | .error _, _ => exact Attempt.quiet_throw _
  | .ok _, .error _ => exact Attempt.quiet_throw _

/-- A session that was opened to read filters is stopped, so it is detached and not dropped. -/
theorem warnings_installedFilters (pid : Pid) (limit : Option Nat) (replies : List Reply) :
    (installedFilters pid limit replies).warnings =
      (partingOf (Opening.attachStopped.left? pid replies)).2 := by
  have hopening : (Session.attachStopped pid replies).warnings =
      (partingOf (Opening.attachStopped.left? pid replies)).2 :=
    Opening.attachStopped.warnings_perform pid replies
  rw [← hopening]
  cases hopened : (Session.attachStopped pid replies).result with
  | error error =>
    rw [installedFilters, Attempt.bind_of_error hopened, Exchange.warnings_withResult]
  | ok s =>
    obtain ⟨hstopped, -⟩ := Session.stopped_of_attachStopped hopened
    have hreading : Attempt.Quiet (s.filters limit).outcome :=
      (s.quiet_whenStopped (SeccompFilter.quiet_readAll s.pid limit) _).outcome
    have hdetach : Attempt.Quiet s.detach := by
      rw [Session.detach, if_pos hstopped]
      exact (inherited_quiet s.pid).detach
    have hrest : Attempt.Quiet (do
        let filters ← (s.filters limit).outcome
        let detached ← s.detach.outcome
        reportFilters pid filters detached) :=
      hreading.bind fun filters => hdetach.outcome.bind fun detached =>
        quiet_reportFilters pid filters detached
    rw [installedFilters, Attempt.bind_of_ok hopened, Exchange.warnings_followedBy]
    exact (congrArg (_ ++ ·) (hrest _)).trans (List.append_nil _)

/-- Whatever a caller asks for, nothing is warned of but what comes of dropping a session. -/
theorem Action.warnings_perform (action : Action) (replies : List Reply) :
    (action.perform replies).warnings = (partingOf (action.left? replies)).2 := by
  cases action with
  | traceMe => exact quiet_traceMe replies
  | traceMeAndStop self => exact quiet_traceMeAndStop self replies
  | attach pid => exact (inherited_quiet pid).attach replies
  | attachStopped pid => exact (inherited_quiet pid).attachStopped replies
  | reachAttachStop pid => exact (inherited_quiet pid).reachAttachStop replies
  | nextStop pid => exact quiet_nextStop pid replies
  | detach pid => exact (inherited_quiet pid).detach replies
  | setOptions pid options => exact (inherited_quiet pid).setOptions options replies
  | resume pid signal => exact (inherited_quiet pid).resume signal replies
  | eventMessage pid => exact (inherited_quiet pid).eventMessage replies
  | peek pid address => exact Tracee.quiet_peek pid address replies
  | readRegister pid field => exact (inherited_quiet pid).readRegister field replies
  | filterAt pid index => exact SeccompFilter.quiet_read pid index replies
  | filters pid limit => exact SeccompFilter.quiet_readAll pid limit replies
  | machine pid => exact Machine.quiet_ofExecutable pid replies
  | installedFilters pid limit => exact warnings_installedFilters pid limit replies
  | begin opening pid => exact opening.warnings_perform pid replies
  | ask s operation => exact operation.quiet_perform s replies
  | close s =>
    rw [left?]
    by_cases hs : s.state = .stopped
    · rw [if_pos hs, perform, Session.detach, if_pos hs]
      exact (inherited_quiet s.pid).detach replies
    · rw [if_neg hs, perform, Session.detach_of_not_stopped hs]
      rfl

/-- The calls of dropping a session come last. -/
theorem Action.exists_calls_perform (action : Action) (replies : List Reply) :
    ∃ own, (action.perform replies).calls = own ++ (partingOf (action.left? replies)).1 := by
  rw [← action.dropped_eq]
  by_cases hinstalled : ∃ pid limit, action = .installedFilters pid limit
  · obtain ⟨pid, limit, rfl⟩ := hinstalled
    obtain ⟨own, hown, -⟩ := reportedOrLost_installedFilters pid limit replies
    exact ⟨own, hown⟩
  · obtain ⟨own, hown, -⟩ := action.surfaced_perform replies fun pid limit h =>
      hinstalled ⟨pid, limit, h⟩
    exact ⟨own, hown⟩

/-! ## Reachable sessions -/

namespace Session

/-- The sessions of `pid` that there can be, with the calls made so far. -/
inductive Reached (pid : Pid) : Session → List Call → Prop
  /-- The opening hands the session over, and some turns follow. -/
  | handedOver {opening : Opening} {replies : List Reply} {s : Session}
      (opened : (opening.perform pid replies).result = .ok s) (turns : List Turn) :
      Reached pid (s.after turns) ((opening.perform pid replies).calls ++ s.callsOf turns)
  /-- The first wait fails, and the session is not handed over. -/
  | left {opening : Opening} {replies rest : List Reply} {s : Session}
      (left : opening.left? pid replies = some (s, rest)) :
      Reached pid s ((opening.begin pid replies).calls ++
        ((attaching pid).wait (opening.begin pid replies).rest).calls)

theorem eq_of_left? {opening : Opening} {pid : Pid} {replies rest : List Reply} {s : Session}
    (h : opening.left? pid replies = some (s, rest)) :
    s = ((attaching pid).wait (opening.begin pid replies).rest).result.2 := by
  unfold Opening.left? at h
  split at h
  next begun _ hbegun =>
    obtain rfl := Opening.eq_attaching_of_begin hbegun
    dsimp only at h
    split at h
    · cases h
    · exact (congrArg Prod.fst (Option.some.inj h)).symm
  next => cases h

/-- A session that ends in some turns was told that its tracee is gone. -/
theorem told_of_exited_after {s : Session} (hs : s.state ≠ .exited) {turns : List Turn}
    (h : (s.after turns).state = .exited) : ∃ call ∈ s.callsOf turns, call.tellsGone = true := by
  induction turns generalizing s with
  | nil => exact absurd h hs
  | cons turn turns ih =>
    by_cases hnext : (s.take turn).result.2.state = .exited
    · obtain ⟨call, hcall, htells⟩ := ((step_take s turn).foundGone hs hnext).exists_tellsGone
      exact ⟨call, List.mem_append_left _ hcall, htells⟩
    · obtain ⟨call, hcall, htells⟩ := ih hnext h
      exact ⟨call, List.mem_append_right _ hcall, htells⟩

variable {pid : Pid} {s : Session} {calls : List Call}

theorem Reached.sound (h : s.Reached pid calls) : s.Sound := by
  cases h with
  | handedOver opened turns => exact sound_after (sound_of_perform opened) turns
  | left left =>
    rw [eq_of_left? left]
    exact (step_wait _ _).sound (sound_attaching pid)

/-- A session ends only if a call tells that the tracee is gone. -/
theorem Reached.told_of_exited (h : s.Reached pid calls) (hs : s.state = .exited) :
    ∃ call ∈ calls, call.tellsGone = true := by
  cases h with
  | @handedOver _ _ opened hopened turns =>
    have hpresent : opened.state ≠ .exited := by
      rcases eq_of_perform hopened with rfl | rfl
      · simp [attaching]
      · simp
    obtain ⟨call, hcall, htells⟩ := told_of_exited_after hpresent hs
    exact ⟨call, List.mem_append_right _ hcall, htells⟩
  | left left =>
    rw [eq_of_left? left] at hs
    have hgone := (step_wait (attaching pid) _).foundGone (by simp [attaching]) hs
    obtain ⟨call, hcall, htells⟩ := hgone.exists_tellsGone
    exact ⟨call, List.mem_append_right _ hcall, htells⟩

end Session

/-! ## No tracee stays behind unnoticed -/

/-- In every state, dropping a session makes the calls and the warnings of `Session.Parted`.
Whatever a caller asks for, the only warnings are those of a session that is dropped on the way,
after all other calls. The reading of a register that never fails gives no warning either. So every
session that there can be is known to have lost its tracee, or dropping it finds the tracee gone,
lets it go or warns, and if a stopped one detaches, that lets the tracee go or is an error. -/
theorem warned_by_drop_alone :
    (∀ (s : Session) (replies : List Reply),
      s.Parted replies (s.drop replies).calls (s.drop replies).warnings) ∧
      (∀ (action : Action) (replies : List Reply),
        let done := action.perform replies
        match action.left? replies with
        | some (s, rest) =>
          (∃ own, done.calls = own ++ (s.drop rest).calls) ∧
            done.warnings = (s.drop rest).warnings
        | none => done.warnings = []) ∧
      (∀ (pid : Pid) (offset : UInt64) (bits : UInt32) (replies : List Reply),
        (registerValue pid offset bits replies).warnings = []) ∧
      ∀ (pid : Pid) (s : Session) (calls : List Call), s.Reached pid calls → ∀ replies,
        let dropped := s.drop replies
        ((s.state = .exited ∧ ∃ call ∈ calls, call.tellsGone = true) ∨
          (∃ call ∈ dropped.calls, call.tellsGone = true) ∨
          (∃ call ∈ dropped.calls, call.releases = true) ∨
          ∃ warning, dropped.warnings = [warning]) ∧
        (s.state = .stopped → (∃ call ∈ (s.detach replies).calls, call.releases = true) ∨
          ∃ error, (s.detach replies).result = .error error) := by
  refine ⟨Session.parted_drop, fun action replies => ?_, quiet_registerValue,
    fun pid s calls h replies => ?_⟩
  · have hwarnings := action.warnings_perform replies
    have hcalls := action.exists_calls_perform replies
    cases hleft : action.left? replies with
    | none =>
      rw [hleft] at hwarnings
      exact hwarnings
    | some left =>
      rw [hleft] at hwarnings hcalls
      exact ⟨hcalls, hwarnings⟩
  · refine ⟨?_, fun hs => Session.released_or_reported_detach hs replies⟩
    by_cases hs : s.state = .exited
    · exact .inl ⟨hs, h.told_of_exited hs⟩
    · exact .inr ((s.parted_drop replies).accounted h.sound.attached hs)

/-- The first wait finds a stop that is no attach-stop and cannot send its signal again. The session
is dropped, the tracee cannot be let go, and that is the only warning. -/
example :
    let action := Action.begin .adoptStopped ⟨5⟩
    let replies : List Reply := [.ok { status := 0x0a7f }, .ok {}, .ok { status := 0x137f },
      .error .eperm, .ok { status := 0x137f }, .error .eperm]
    (action.perform replies).warnings = [.detachFailed ⟨5⟩ (.notPermitted ⟨5⟩ .eperm)] := by
  decide +kernel

end ProcTrace
