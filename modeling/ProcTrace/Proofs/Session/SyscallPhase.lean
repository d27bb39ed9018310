import ProcTrace.Proofs.Requeue

/-!
# Whether a syscall-stop is an enter or an exit

The kernel reports the way into a syscall and the way out of it alike, so a session keeps account of
which comes next. Enter and exit take turns, and an event in the middle of a syscall says that the
tracee is inside. `Phased` says so of a list of reported stops, and `phased_reports` says it of
every run, however waits are mixed with other operations and whether or not they succeed.

Hence which of the two a syscall-stop is can be told from the number of syscall-stops since the
latest event of that kind, or since the session began if there was none
(`syscallStop_by_parity_of_run`). Stops before the attach-stop are restarted and not reported, so
they do not count.
-/

namespace ProcTrace

namespace Stop

/-- The way into a syscall or out of it. -/
def isSyscall : Stop → Bool
  | syscallEnter | syscallExit => true
  | _ => false

/-- A stop at an event in the middle of a syscall. -/
def isMidSyscall : Stop → Bool
  | event kind => kind.midSyscall
  | _ => false

end Stop

/-- A wait that was told of a syscall-stop. -/
def Call.showsSyscallStop (call : Call) : Bool :=
  call.change? = some (.stopped .syscall)

/-! ## Stops that take turns -/

/-- The stops are reported one after another. Whether the tracee is inside a syscall is told before
the first of them and after the last one. -/
inductive Phased : Bool → List Stop → Bool → Prop
  | nil (inside : Bool) : Phased inside [] inside
  | enter {stops : List Stop} {after : Bool} (rest : Phased true stops after) :
      Phased false (.syscallEnter :: stops) after
  | leave {stops : List Stop} {after : Bool} (rest : Phased false stops after) :
      Phased true (.syscallExit :: stops) after
  | midSyscall {inside after : Bool} {stop : Stop} {stops : List Stop}
      (event : stop.isMidSyscall = true) (rest : Phased true stops after) :
      Phased inside (stop :: stops) after
  | other {inside after : Bool} {stop : Stop} {stops : List Stop}
      (noSyscall : stop.isSyscall = false) (noEvent : stop.isMidSyscall = false)
      (rest : Phased inside stops after) : Phased inside (stop :: stops) after

namespace Phased

variable {inside between after : Bool} {xs ys : List Stop}

theorem append (hx : Phased inside xs between) (hy : Phased between ys after) :
    Phased inside (xs ++ ys) after := by
  induction hx with
  | nil => exact hy
  | enter rest ih => exact .enter (ih hy)
  | leave rest ih => exact .leave (ih hy)
  | midSyscall event rest ih => exact .midSyscall event (ih hy)
  | other noSyscall noEvent rest ih => exact .other noSyscall noEvent (ih hy)

theorem exists_of_append (h : Phased inside (xs ++ ys) after) :
    ∃ between, Phased inside xs between ∧ Phased between ys after := by
  induction xs generalizing inside with
  | nil => exact ⟨inside, .nil inside, h⟩
  | cons stop xs ih =>
    rw [List.cons_append] at h
    cases h with
    | enter rest =>
      obtain ⟨between, hx, hy⟩ := ih rest
      exact ⟨between, .enter hx, hy⟩
    | leave rest =>
      obtain ⟨between, hx, hy⟩ := ih rest
      exact ⟨between, .leave hx, hy⟩
    | midSyscall event rest =>
      obtain ⟨between, hx, hy⟩ := ih rest
      exact ⟨between, .midSyscall event hx, hy⟩
    | other noSyscall noEvent rest =>
      obtain ⟨between, hx, hy⟩ := ih rest
      exact ⟨between, .other noSyscall noEvent hx, hy⟩

/-- After an event in the middle of a syscall the tracee is inside. -/
theorem of_midSyscall {stop : Stop} (h : Phased inside (stop :: xs) after)
    (event : stop.isMidSyscall = true) : Phased true xs after := by
  cases h with
  | enter rest => exact rest
  | leave rest => cases event
  | midSyscall event rest => exact rest
  | other noSyscall noEvent rest => simp [event] at noEvent

/-- Without an event in the middle of a syscall, it is the number of syscall-stops that decides. -/
theorem inside_iff (h : Phased inside xs after) (hxs : ∀ stop ∈ xs, stop.isMidSyscall = false) :
    after = true ↔ (inside.toNat + xs.countP Stop.isSyscall) % 2 = 1 := by
  induction h with
  | nil inside => cases inside <;> simp
  | @enter stops after rest ih =>
    have hcount : (Stop.syscallEnter :: stops).countP Stop.isSyscall =
        stops.countP Stop.isSyscall + 1 := List.countP_cons_of_pos rfl
    rw [ih fun stop hstop => hxs stop (List.mem_cons_of_mem _ hstop), hcount]
    simp only [Bool.toNat_true, Bool.toNat_false]
    omega
  | @leave stops after rest ih =>
    have hcount : (Stop.syscallExit :: stops).countP Stop.isSyscall =
        stops.countP Stop.isSyscall + 1 := List.countP_cons_of_pos rfl
    rw [ih fun stop hstop => hxs stop (List.mem_cons_of_mem _ hstop), hcount]
    simp only [Bool.toNat_true, Bool.toNat_false]
    omega
  | midSyscall event rest ih =>
    have hnot := hxs _ (List.mem_cons_self ..)
    simp [event] at hnot
  | @other inside after stop stops noSyscall noEvent rest ih =>
    have hcount : (stop :: stops).countP Stop.isSyscall = stops.countP Stop.isSyscall :=
      List.countP_cons_of_neg (by simp [noSyscall])
    rw [ih fun stop hstop => hxs stop (List.mem_cons_of_mem _ hstop), hcount]

/-- A tracee that is inside a syscall does not enter one before it has left. -/
theorem exit_mem (h : Phased true (xs ++ .syscallEnter :: ys) after) : .syscallExit ∈ xs := by
  induction xs with
  | nil =>
    cases h with
    | midSyscall event => cases event
    | other noSyscall => cases noSyscall
  | cons stop xs ih =>
    rw [List.cons_append] at h
    cases h with
    | leave rest => exact List.mem_cons_self ..
    | midSyscall event rest => exact List.mem_cons_of_mem _ (ih rest)
    | other noSyscall noEvent rest => exact List.mem_cons_of_mem _ (ih rest)

/-- Between two ways into a syscall there is one out of it. -/
theorem exit_mem_between {before between rest : List Stop}
    (h : Phased inside (before ++ .syscallEnter :: (between ++ .syscallEnter :: rest)) after) :
    .syscallExit ∈ between := by
  obtain ⟨_, _, h⟩ := h.exists_of_append
  cases h with
  | enter rest => exact rest.exit_mem
  | midSyscall event => cases event
  | other noSyscall => cases noSyscall

end Phased

theorem phased_event (inside : Bool) (kind : Event) :
    Phased inside [.event kind] (inside || kind.midSyscall) := by
  cases hmid : kind.midSyscall with
  | true =>
    rw [Bool.or_true]
    exact .midSyscall hmid (.nil _)
  | false =>
    rw [Bool.or_false]
    exact .other rfl hmid (.nil _)

/-! ## The stops that a run reports -/

/-- The stop that an operation reports, if it is a wait that succeeds. -/
def Operation.reported : Operation → Except Error Outcome → List Stop
  | .wait, .ok (.stop stop) => [stop]
  | _, _ => []

namespace Operation

theorem reported_error (operation : Operation) (error : Error) :
    operation.reported (.error error) = [] := by
  cases operation with
  | _ => rfl

theorem reported_of_isReading {operation : Operation} (h : operation.isReading = true)
    (result : Except Error Outcome) : operation.reported result = [] := by
  cases operation with
  | wait => cases h
  | _ => rfl

end Operation

namespace Session

variable {s t : Session} {operation : Operation} {calls : List Call}
  {result : Except Error Outcome}

/-- The stops that are reported in some turns, in order. -/
def reports : Session → List Turn → List Stop
  | _, [] => []
  | s, turn :: turns => turn.operation.reported (s.take turn).result.1 ++
      (s.take turn).result.2.reports turns

/-- A change is reported in turn, and one that cannot be classified is not reported. -/
theorem Classified.phased {change : Change} {classified : Except Error (Stop × Bool)}
    (h : s.Classified change calls classified) :
    Phased s.inSyscall (Operation.wait.reported ((classified.map Prod.fst).map .stop))
      (s.settle classified).inSyscall := by
  cases h with
  | ended | delivery | probedDelivery | group => exact .other rfl rfl (.nil _)
  | enter outside =>
    rw [outside]
    exact .enter (.nil _)
  | leave inside =>
    rw [inside]
    exact .leave (.nil _)
  | event known => exact phased_event _ _
  | unknownEvent | probeFailed => exact .nil _

/-- Every step reports in turn. -/
theorem Step.phased (h : s.Step operation calls result t) :
    Phased s.inSyscall (operation.reported result) t.inSyscall := by
  cases h with
  | refused | notResumed | optionsNotSet =>
    rw [Operation.reported_error]
    exact .nil _
  | attachStop => exact .other rfl rfl (.nil _)
  | @attachFailed _ error =>
    obtain ⟨state, hframe⟩ := exists_afterFailedAttach_eq s error
    rw [hframe]
    exact .nil _
  | @waitFailed _ _ errno =>
    obtain ⟨state, hframe⟩ := exists_afterFailedWait_eq s errno
    rw [hframe]
    exact .nil _
  | changed state waits ends means => exact means.phased
  | resumed | optionsSet => exact .nil _
  | read allowed reading =>
    rw [Operation.reported_of_isReading reading]
    exact .nil _

/-- Every run reports in turn. -/
theorem phased_reports (s : Session) (turns : List Turn) :
    Phased s.inSyscall (s.reports turns) (s.after turns).inSyscall := by
  induction turns generalizing s with
  | nil => exact .nil _
  | cons turn turns ih => exact (step_take s turn).phased.append (ih _)

/-- A session that is attaching still has nothing to report. -/
theorem Step.reported_eq_nil_of_attaching (h : s.Step operation calls result t)
    (ht : t.state = .attaching) : operation.reported result = [] := by
  cases h with
  | refused | notResumed | optionsNotSet => exact Operation.reported_error _ _
  | attachStop => cases ht
  | attachFailed | waitFailed | resumed | optionsSet => rfl
  | changed =>
    rcases state_settle s _ with hstate | hstate <;> cases hstate.symm.trans ht
  | read allowed reading => exact Operation.reported_of_isReading reading _

theorem reports_eq_nil_of_attaching {turns : List Turn} (h : (s.after turns).state = .attaching) :
    s.reports turns = [] := by
  induction turns generalizing s with
  | nil => rfl
  | cons turn turns ih =>
    have hnext : (s.take turn).result.2.state = .attaching := attaching_of_after h
    rw [reports, (step_take s turn).reported_eq_nil_of_attaching hnext, ih h, List.append_nil]

/-! ## Waits that are told of a syscall-stop -/

/-- A wait that is told of a syscall-stop reports it, as what its turn makes it. -/
theorem Step.result_of_syscallStop (h : s.Step .wait calls result t) (hs : s.state ≠ .attaching)
    (hshows : calls.any Call.showsSyscallStop = true) :
    result = .ok (.stop (if s.inSyscall then .syscallExit else .syscallEnter)) := by
  obtain ⟨call, hcall, hshows⟩ := List.any_eq_true.1 hshows
  have hchange : call.change? = some (.stopped .syscall) := of_decide_eq_true hshows
  cases h with
  | refused => cases hcall
  | attachStop state | attachFailed state => exact absurd state hs
  | waitFailed state waits ends =>
    rcases waits.change?_of_mem hcall with hnone | hlast
    · cases hnone.symm.trans hchange
    · cases ends.change?_eq_none.symm.trans (hlast.symm.trans hchange)
  | changed state waits ends means =>
    rcases List.mem_append.1 hcall with hcall | hcall
    · rcases waits.change?_of_mem hcall with hnone | hlast
      · cases hnone.symm.trans hchange
      · cases Option.some.inj (ends.change?_eq.symm.trans (hlast.symm.trans hchange))
        cases means with
        | enter outside => simp [outside, Except.map]
        | leave inside => simp [inside, Except.map]
    · simp [Call.change?, means.request_eq hcall] at hchange
  | read allowed reading => cases reading

/-- A wait of an attaching session reports the attach-stop, or fails. -/
theorem Step.result_of_attaching (h : s.Step .wait calls result t) (hs : s.state = .attaching) :
    result = .ok (.stop .attach) ∨ ∃ error, result = .error error := by
  cases h with
  | attachStop => exact Or.inl rfl
  | refused | attachFailed => exact Or.inr ⟨_, rfl⟩
  | waitFailed state | changed state => cases hs.symm.trans state
  | read allowed reading => cases reading

/-- A syscall-stop that such a wait is told of is restarted, before it waits again. -/
theorem Step.restarted_of_attaching {before later : List Call} {call : Call}
    (h : s.Step .wait (before ++ call :: later) result t) (hs : s.state = .attaching)
    (hshows : call.showsSyscallStop = true) :
    (later.takeWhile fun next => !next.isWait).map Call.request = [.cont s.pid none] := by
  have hchange : call.change? = some (.stopped .syscall) := of_decide_eq_true hshows
  have hearly : StopReport.syscall ≠ .attachStop := nofun
  have hrestarted {result : Except Error Unit}
      (phase : AttachPhase s.pid (before ++ call :: later) result) :
      (later.takeWhile fun next => !next.isWait).map Call.request = [.cont s.pid none] := by
    have hleads := phase.eachBefore.of_append
    simpa only [Call.LeadsTo, hchange, if_neg hearly] using hleads
  generalize hcalls : before ++ call :: later = calls at h
  cases h with
  | refused => simp at hcalls
  | attachStop state phase | attachFailed state phase => exact hrestarted (hcalls ▸ phase)
  | waitFailed state | changed state => cases hs.symm.trans state
  | read allowed reading => cases reading

/-! ## Every run -/

/-- In every run of a session, a wait past the attach-stop that is told of a syscall-stop reports it
as an enter or an exit. If no event in the middle of a syscall was reported, it is an enter exactly
if an even number of syscall-stops was. Otherwise it is one exactly if their number since the latest
such event is odd. So no two enters are reported without an exit in between. While the session is
attaching nothing is reported, and a wait reports the attach-stop at most. If it is told of a
syscall-stop, it restarts the tracee once, before it waits again. -/
theorem syscallStop_by_parity_of_run {opening : Opening} {pid : Pid} {replies : List Reply}
    {s : Session} (h : (opening.perform pid replies).result = .ok s) (turns : List Turn) :
    (∀ more, (s.after turns).state ≠ .attaching →
      let waited := (s.after turns).take ⟨.wait, more⟩
      waited.calls.any Call.showsSyscallStop = true →
      (waited.result.1 = .ok (.stop .syscallEnter) ∨ waited.result.1 = .ok (.stop .syscallExit)) ∧
        ((∀ stop ∈ s.reports turns, stop.isMidSyscall = false) →
          (waited.result.1 = .ok (.stop .syscallEnter) ↔
            (s.reports turns).countP Stop.isSyscall % 2 = 0)) ∧
        ∀ before event since, s.reports turns = before ++ event :: since →
          event.isMidSyscall = true → (∀ stop ∈ since, stop.isMidSyscall = false) →
          (waited.result.1 = .ok (.stop .syscallEnter) ↔
            since.countP Stop.isSyscall % 2 = 1)) ∧
      (∀ before between rest,
        s.reports turns = before ++ .syscallEnter :: (between ++ .syscallEnter :: rest) →
        .syscallExit ∈ between) ∧
      ((s.after turns).state = .attaching → s.reports turns = [] ∧ ∀ more,
        let waited := (s.after turns).take ⟨.wait, more⟩
        (waited.result.1 = .ok (.stop .attach) ∨ ∃ error, waited.result.1 = .error error) ∧
          ∀ before call later, waited.calls = before ++ call :: later →
            call.showsSyscallStop = true →
            (later.takeWhile fun next => !next.isWait).map Call.request = [.cont pid none]) := by
  have houtside : s.inSyscall = false := by
    rcases eq_of_perform h with rfl | rfl <;> rfl
  have hphased := phased_reports s turns
  rw [houtside] at hphased
  refine ⟨fun more hs => ?_, fun before between rest hreports => ?_, fun hs => ?_⟩
  · intro waited hshows
    have hresult := (step_take (s.after turns) ⟨.wait, more⟩).result_of_syscallStop hs hshows
    have henter : waited.result.1 = .ok (.stop .syscallEnter) ↔
        ¬(s.after turns).inSyscall = true := by
      rw [hresult]
      cases (s.after turns).inSyscall <;> simp
    refine ⟨?_, fun hnone => ?_, fun before event since hreports hevent hnone => ?_⟩
    · rw [hresult]
      cases (s.after turns).inSyscall with
      | true => exact Or.inr rfl
      | false => exact Or.inl rfl
    · rw [henter, hphased.inside_iff hnone, Bool.toNat_false]
      omega
    · rw [hreports] at hphased
      obtain ⟨_, _, hsince⟩ := hphased.exists_of_append
      rw [henter, (hsince.of_midSyscall hevent).inside_iff hnone, Bool.toNat_true]
      omega
  · rw [hreports] at hphased
    exact hphased.exit_mem_between
  · refine ⟨reports_eq_nil_of_attaching hs, fun more => ?_⟩
    have hstep := step_take (s.after turns) ⟨.wait, more⟩
    have hpid : (s.after turns).pid = pid := by
      rw [pid_after]
      rcases eq_of_perform h with rfl | rfl <;> rfl
    refine ⟨hstep.result_of_attaching hs, fun before call later hcalls hshows => ?_⟩
    rw [hcalls] at hstep
    rw [← hpid]
    exact hstep.restarted_of_attaching hs hshows

/-- A tracee enters a syscall and is stopped by a seccomp filter in the middle of it. A wait fails
in between. The syscall-stop after that is an exit. -/
theorem syscallExit_after_seccomp :
    let s : Session := { Session.attaching ⟨5⟩ with state := .stopped, lastStop := some .attach }
    let turns : List Turn := [⟨.resume none, [.ok {}]⟩, ⟨.wait, [.ok { status := 0x857f }]⟩,
      ⟨.resume none, [.ok {}]⟩, ⟨.wait, [.ok { status := 0x7057f }]⟩, ⟨.resume none, [.ok {}]⟩,
      ⟨.wait, [.error .einval]⟩]
    let more : List Reply := [.ok { status := 0x857f }]
    (Opening.adoptStopped.perform ⟨5⟩ [.ok { status := 0x137f }]).result = .ok s ∧
      s.reports turns = [.syscallEnter, .event .seccomp] ∧
      ((s.after turns).take ⟨.wait, more⟩).result.1 = .ok (.stop .syscallExit) := by
  intro s turns more
  have hopened : (Opening.adoptStopped.perform ⟨5⟩ [.ok { status := 0x137f }]).result = .ok s :=
    eq_ok_of_toOption (by decide +kernel)
  have hreports : s.reports turns = [.syscallEnter, .event .seccomp] := by decide +kernel
  obtain ⟨heither, _, hsince⟩ := (syscallStop_by_parity_of_run hopened turns).1 more
    (by decide +kernel) (by decide +kernel)
  have hexit := hsince [.syscallEnter] (.event .seccomp) [] hreports rfl (by simp)
  refine ⟨hopened, hreports, heither.resolve_left fun henter => ?_⟩
  cases hexit.1 henter

/-- A syscall-stop before the attach-stop is restarted and not reported : the wait that is told of
it goes on to the attach-stop. -/
theorem attach_after_early_syscallStop :
    let s : Session := .attaching ⟨5⟩
    let waited := s.take ⟨.wait, [.ok { status := 0x857f }, .ok {}, .ok { status := 0x137f }]⟩
    (Opening.adopt.perform ⟨5⟩ []).result = .ok s ∧
      waited.calls.any Call.showsSyscallStop = true ∧ waited.result.1 = .ok (.stop .attach) := by
  intro s waited
  exact ⟨rfl, by decide +kernel, eq_ok_of_toOption (by decide +kernel)⟩

end Session

end ProcTrace
