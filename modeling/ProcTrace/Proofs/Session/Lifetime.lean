import ProcTrace.Proofs.Session.Closing
import ProcTrace.Proofs.Session.Gone

/-!
# Nothing is asked after the end

Over the lifetime of a session, from its opening through any turns to its closing, nothing is asked
after a request to detach. Nothing is asked about the process after a wait that reports its end, and
nothing once the session has ended in any other way : only the executable may still be opened
(`Lifetime.nothing_after_end`). So a process that has taken over the number of the tracee is left
alone.

The transcript of every part of a lifetime says whether the end was reported in it (`EndsBy`), and
then the session has ended, and what it asks for afterwards leaves the process alone
(`Step.leavesAlone`).
-/

namespace ProcTrace

/-- The request is about the process, and not about the file it runs. -/
def Request.touches : Request → Bool
  | .openExecutable _ => false
  | _ => true

namespace Call

/-- A request to detach, whether or not it succeeds. -/
def detaches (call : Call) : Bool :=
  match call.request with
  | .detach _ _ => true
  | _ => false

/-- What may be asked after a call : nothing after a request to detach, and nothing about the
process after a report of its end. -/
def Allows (call later : Call) : Prop :=
  call.detaches = false ∧ (call.reportsEnd = true → later.request.touches = false)

theorem detaches_eq_false {call : Call} (h : ∀ pid signal, call.request ≠ .detach pid signal) :
    call.detaches = false := by
  unfold detaches
  split
  next pid signal hrequest => exact absurd hrequest (h pid signal)
  next => rfl

end Call

/-! ## Transcripts that end with the tracee -/

/-- The calls do not detach. If one of them reports the end of the tracee then `p` holds, and those
after it leave the process alone. -/
structure EndsBy (p : Prop) (calls : List Call) : Prop where
  undetached : ∀ call ∈ calls, call.detaches = false
  ended : ∀ call ∈ calls, call.reportsEnd = true → p
  last : calls.Pairwise fun call later => call.reportsEnd = true → later.request.touches = false

namespace EndsBy

variable {p q : Prop} {calls xs ys : List Call}

theorem mono (h : EndsBy p calls) (hpq : p → q) : EndsBy q calls :=
  ⟨h.undetached, fun call hcall hend => hpq (h.ended call hcall hend), h.last⟩

/-- Calls that neither detach nor report an end. -/
theorem of_forall (undetached : ∀ call ∈ calls, call.detaches = false)
    (quiet : ∀ call ∈ calls, call.reportsEnd = false) : EndsBy p calls := by
  refine ⟨undetached, fun call hcall hend => ?_, ?_⟩
  · simp [quiet call hcall] at hend
  · refine List.pairwise_of_forall_mem_list fun call hcall later _ hend => ?_
    simp [quiet call hcall] at hend

theorem nil : EndsBy p [] :=
  of_forall (by simp) (by simp)

theorem append (hx : EndsBy p xs) (hy : EndsBy q ys) (hpq : p → q)
    (alone : p → ∀ call ∈ ys, call.request.touches = false) : EndsBy q (xs ++ ys) := by
  refine ⟨fun call hcall => ?_, fun call hcall hend => ?_, ?_⟩
  · rcases List.mem_append.1 hcall with hcall | hcall
    · exact hx.undetached call hcall
    · exact hy.undetached call hcall
  · rcases List.mem_append.1 hcall with hcall | hcall
    · exact hpq (hx.ended call hcall hend)
    · exact hy.ended call hcall hend
  · refine List.pairwise_append.2 ⟨hx.last, hy.last, fun call hcall later hlater hend => ?_⟩
    exact alone (hx.ended call hcall hend) later hlater

/-- Calls that do not end come before others. -/
theorem append_of_not (hx : EndsBy False xs) (hy : EndsBy q ys) : EndsBy q (xs ++ ys) :=
  hx.append hy False.elim False.elim

theorem pairwise (h : EndsBy p calls) : calls.Pairwise Call.Allows :=
  h.last.imp_of_mem fun hcall _ hend => ⟨h.undetached _ hcall, hend⟩

theorem pairwise_append (hx : EndsBy p xs) (hy : ys.Pairwise Call.Allows)
    (alone : p → ∀ call ∈ ys, call.request.touches = false) :
    (xs ++ ys).Pairwise Call.Allows := by
  refine List.pairwise_append.2 ⟨hx.pairwise, hy, fun call hcall later hlater => ?_⟩
  exact ⟨hx.undetached call hcall, fun hend => alone (hx.ended call hcall hend) later hlater⟩

end EndsBy

/-! ## The attach phase -/

section

variable {pid : Pid} {calls : List Call}

/-- A wait reports the end in its last call, if at all. -/
theorem Waits.endsBy {p : Prop} {reply : Reply} (h : Waits pid calls reply)
    (hp : Call.reportsEnd ⟨.waitpid pid, reply⟩ = true → p) : EndsBy p calls := by
  obtain ⟨idle, rfl, hidle⟩ := h
  refine EndsBy.append_of_not (.of_forall (fun call hcall => ?_) fun call hcall => ?_) ?_
  · exact Call.detaches_eq_false fun _ _ => by simp [(hidle call hcall).1]
  · exact Call.reportsEnd_eq_false fun _ => by
      simp [change?_of_idle (hidle call hcall).1 (hidle call hcall).2]
  · refine ⟨fun call hcall => ?_, fun call hcall => ?_, List.pairwise_singleton _ _⟩
    · rw [List.mem_singleton.1 hcall]
      rfl
    · rw [List.mem_singleton.1 hcall]
      exact hp

theorem Waits.endsBy_of_failed {p : Prop} {reply : Reply} {errno : Errno}
    (h : Waits pid calls reply) (ends : reply.Ends pid (.error errno)) : EndsBy p calls := by
  refine h.endsBy fun hend => ?_
  simp [Call.reportsEnd, ends.change?_eq_none] at hend

theorem StopSeen.endsBy {p : Prop} {report : StopReport} (h : StopSeen pid calls report) :
    EndsBy p calls := by
  obtain ⟨_, _, hwaits, hends⟩ := h
  refine hwaits.endsBy fun hend => ?_
  simp [Call.reportsEnd, hends.change?_eq, Change.isStop] at hend

theorem StopMissed.endsBy {error : Error} (h : StopMissed pid calls error) :
    EndsBy (error.traceeGone = true) calls := by
  cases h with
  | failed waits ends => exact waits.endsBy_of_failed ends
  | ended waits ends => exact waits.endsBy fun _ => rfl

theorem EarlyStops.endsBy {p : Prop} {signals : List Signal} (h : EarlyStops pid calls signals) :
    EndsBy p calls := by
  refine .of_forall (fun call hcall => ?_) fun call hcall => ?_
  · refine Call.detaches_eq_false fun _ _ => ?_
    rcases (h.of_mem hcall).1 with hrequest | hrequest <;> simp [hrequest]
  · refine Call.reportsEnd_eq_false fun _ => ?_
    rcases (h.of_mem hcall).2 with hchange | ⟨_, _, hchange⟩ <;> simp [hchange]

theorem Requeued.endsBy {p : Prop} {signals : List Signal} (h : Requeued pid signals calls) :
    EndsBy p calls := by
  refine .of_forall (fun call hcall => ?_) fun call hcall => ?_
  · obtain ⟨_, _, rfl⟩ := h.of_mem hcall
    rfl
  · obtain ⟨_, _, rfl⟩ := h.of_mem hcall
    rfl

/-- A call that is no wait and does not detach. -/
theorem EndsBy.singleton {p : Prop} {call : Call} (hdetaches : call.detaches = false)
    (hend : call.reportsEnd = false) : EndsBy p [call] :=
  .of_forall (by simpa using hdetaches) (by simpa using hend)

theorem AttachStopMissed.endsBy {error : Error} (h : AttachStopMissed pid calls error) :
    EndsBy (error.traceeGone = true) calls := by
  cases h with
  | waiting stops missed => exact stops.endsBy.append_of_not missed.endsBy
  | restarting errno stops seen =>
    exact stops.endsBy.append_of_not (seen.endsBy.append_of_not (.singleton rfl rfl))

/-- An end that is reported while attaching makes the phase fail. -/
theorem AttachPhase.endsBy {result : Except Error Unit} (h : AttachPhase pid calls result) :
    EndsBy (∃ error, result = .error error ∧ error.traceeGone = true) calls := by
  cases h with
  | missed missed => exact missed.endsBy.mono fun hgone => ⟨_, rfl, hgone⟩
  | reached stops seen sent =>
    exact stops.endsBy.append_of_not (seen.endsBy.append_of_not sent.endsBy)
  | refused stops seen sent =>
    exact stops.endsBy.append_of_not (seen.endsBy.append_of_not
      (sent.endsBy.append_of_not (.singleton rfl rfl)))

end

/-! ## Steps and turns -/

namespace Session

variable {s t : Session} {operation : Operation} {calls : List Call}
  {result : Except Error Outcome}

theorem Classified.endsBy {p : Prop} {change : Change} {classified : Except Error (Stop × Bool)}
    (h : s.Classified change calls classified) : EndsBy p calls := by
  cases h with
  | ended | enter | leave | event | unknownEvent | delivery => exact .nil
  | probedDelivery | group | probeFailed => exact .singleton rfl rfl

theorem reads_undetached {call : Call} (h : operation.ReadsBy s.pid call.request) :
    call.detaches = false ∧ call.reportsEnd = false := by
  refine ⟨Call.detaches_eq_false fun _ _ hrequest => ?_, Call.reportsEnd_eq_false fun _ => ?_⟩
  · rw [hrequest] at h
    cases operation <;> simp [Operation.ReadsBy] at h
  · rw [change?_eq_none]
    · simp
    · intro _ hrequest
      rw [hrequest] at h
      cases operation <;> simp [Operation.ReadsBy] at h

/-- A step in which the end is reported leaves the session ended. -/
theorem Step.endsBy (h : s.Step operation calls result t) : EndsBy (t.state = .exited) calls := by
  cases h with
  | refused => exact .nil
  | attachStop state phase =>
    refine phase.endsBy.mono fun ⟨_, hok, _⟩ => ?_
    cases hok
  | attachFailed state phase =>
    refine phase.endsBy.mono fun ⟨_, herror, hgone⟩ => ?_
    cases herror
    rw [state_afterFailedAttach, if_pos hgone]
  | waitFailed state waits ends => exact waits.endsBy_of_failed ends
  | @changed _ _ reply _ change classified state waits ends means =>
    have hend : Call.reportsEnd ⟨.waitpid s.pid, reply⟩ = true → change.isStop = false := by
      simp [Call.reportsEnd, ends.change?_eq]
    refine (waits.endsBy hend).append means.endsBy (fun hstop => ?_) fun hstop => ?_
    · cases means with
      | ended => rfl
      | _ => cases hstop
    · cases means with
      | ended => simp
      | _ => cases hstop
  | resumed | notResumed | optionsSet | optionsNotSet => exact .singleton rfl rfl
  | read allowed reading reads =>
    exact .of_forall (fun call hcall => (reads_undetached (reads call hcall)).1)
      fun call hcall => (reads_undetached (reads call hcall)).2

/-- A session that has ended opens the executable at most. -/
theorem Step.leavesAlone (h : s.Step operation calls result t) (hs : s.state = .exited) :
    ∀ call ∈ calls, call.request.touches = false := by
  cases h with
  | refused => simp
  | attachStop state | attachFailed state | waitFailed state | changed state | resumed _ state
  | notResumed _ state | optionsSet _ state | optionsNotSet _ state => cases hs.symm.trans state
  | read allowed reading reads =>
    intro call hcall
    have hreads := reads call hcall
    cases operation with
    | machine =>
      have hrequest : call.request = .openExecutable s.pid := hreads
      rw [hrequest]
      rfl
    | _ => simp [Operation.Allowed, hs] at allowed

/-- The calls that are made in some turns. -/
def callsOf : Session → List Turn → List Call
  | _, [] => []
  | s, turn :: turns => (s.take turn).calls ++ (s.take turn).result.2.callsOf turns

theorem callsOf_append (s : Session) (turns more : List Turn) :
    s.callsOf (turns ++ more) = s.callsOf turns ++ (s.after turns).callsOf more := by
  induction turns generalizing s with
  | nil => rfl
  | cons turn turns ih => simp only [List.cons_append, callsOf, after, ih, List.append_assoc]

theorem leavesAlone_callsOf (hs : s.state = .exited) (turns : List Turn) :
    ∀ call ∈ s.callsOf turns, call.request.touches = false := by
  induction turns generalizing s with
  | nil => simp [callsOf]
  | cons turn turns ih =>
    have hstep := step_take s turn
    intro call hcall
    rcases List.mem_append.1 hcall with hcall | hcall
    · exact hstep.leavesAlone hs call hcall
    · exact ih (hstep.exited hs) call hcall

theorem endsBy_callsOf (s : Session) (turns : List Turn) :
    EndsBy ((s.after turns).state = .exited) (s.callsOf turns) := by
  induction turns generalizing s with
  | nil => exact .nil
  | cons turn turns ih =>
    have hstep := step_take s turn
    exact hstep.endsBy.append (ih _) (fun hs => exited_after hs turns)
      fun hs => leavesAlone_callsOf hs turns

/-! ## Openings and closings -/

/-- A request to detach is the last one. -/
theorem Dropped.pairwise (h : s.Dropped calls) : calls.Pairwise Call.Allows := by
  cases h with
  | detached reply => exact List.pairwise_singleton _ _
  | missed state phase => exact phase.endsBy.pairwise
  | reached reply state phase =>
    refine phase.endsBy.pairwise_append (List.pairwise_singleton _ _) fun ⟨_, hok, _⟩ => ?_
    cases hok
  | left => exact .nil

end Session

theorem Opening.endsBy_begin (opening : Opening) (pid : Pid) (replies : List Reply) :
    EndsBy False (opening.begin pid replies).calls := by
  have hattach {call : Call} (hcall : call ∈ (opening.begin pid replies).calls) :
      call.request = .attach pid := opening.asks_begin pid replies call hcall
  refine .of_forall (fun call hcall => ?_) fun call hcall => ?_
  · exact Call.detaches_eq_false fun _ _ => by simp [hattach hcall]
  · refine Call.reportsEnd_eq_false fun _ => ?_
    rw [change?_eq_none fun _ => by simp [hattach hcall]]
    simp

theorem Session.pairwise_waitOrDrop {s : Session} {replies : List Reply} {error : Error}
    (h : (s.waitOrDrop replies).result = .error error) :
    (s.waitOrDrop replies).calls.Pairwise Call.Allows := by
  rcases Session.waitOrDrop_cases s replies with ⟨_, _, _, hok⟩ | ⟨_, _, hc, _⟩
  · cases h.symm.trans hok
  · have hdropped := (s.wait replies).result.2.dropped_drop (s.wait replies).rest
    rw [hc]
    refine (s.step_wait replies).endsBy.pairwise_append hdropped.pairwise fun hexited => ?_
    simp [hdropped.eq_nil hexited]

/-- An opening reports no end if it succeeds. If it fails its calls are all there are. -/
theorem Opening.perform_cases (opening : Opening) (pid : Pid) (replies : List Reply) :
    (∃ s, (opening.perform pid replies).result = .ok s ∧
      EndsBy (s.state = .exited) (opening.perform pid replies).calls) ∨
    ∃ error, (opening.perform pid replies).result = .error error ∧
      (opening.perform pid replies).calls.Pairwise Call.Allows := by
  have hbegin : EndsBy False (opening.begin pid replies).calls := opening.endsBy_begin pid replies
  cases hw : opening.waits with
  | false =>
    rw [Opening.perform_of_not_waits hw]
    cases hr : (opening.begin pid replies).result with
    | ok s => exact Or.inl ⟨s, rfl, hbegin.mono False.elim⟩
    | error error => exact Or.inr ⟨error, rfl, hbegin.pairwise⟩
  | true =>
    rw [Opening.perform_of_waits hw]
    rcases Attempt.bind_cases (opening.begin pid) Session.waitOrDrop replies with
      ⟨error, _, hx⟩ | ⟨s, _, hx⟩
    · rw [hx]
      exact Or.inr ⟨error, rfl, hbegin.pairwise⟩
    · rw [hx]
      cases hr : (s.waitOrDrop (opening.begin pid replies).rest).result with
      | ok waited =>
        refine Or.inl ⟨waited, hr, ?_⟩
        rcases Session.waitOrDrop_cases s (opening.begin pid replies).rest with
          ⟨_, _, hc, hok⟩ | ⟨_, _, _, herror⟩
        · obtain rfl := Except.ok.inj (hr.symm.trans hok)
          rw [Exchange.calls_followedBy, hc]
          exact hbegin.append_of_not (s.step_wait _).endsBy
        · cases hr.symm.trans herror
      | error error =>
        have hcalls := hbegin.pairwise_append (Session.pairwise_waitOrDrop hr) False.elim
        exact Or.inr ⟨error, hr, hcalls⟩

/-! ## Lifetimes -/

/-- A session from its opening to its closing, with the replies for all of it. -/
structure Lifetime where
  opening : Opening
  pid : Pid
  replies : List Reply
  turns : List Turn
  closing : Closing
  closed : List Reply

namespace Lifetime

/-- What comes of the opening up to its wait. -/
def begun (life : Lifetime) : Exchange (Except Error Session) :=
  life.opening.begin life.pid life.replies

/-- What comes of the whole opening. -/
def opened (life : Lifetime) : Exchange (Except Error Session) :=
  life.opening.perform life.pid life.replies

/-- All calls of the lifetime. There is nothing more after an opening that fails. -/
def calls (life : Lifetime) : List Call :=
  match life.opened.result with
  | .error _ => life.opened.calls
  | .ok s => life.opened.calls ++ s.callsOf life.turns ++
      life.closing.calls (s.after life.turns) life.closed

theorem calls_of_ok {life : Lifetime} {s : Session} (h : life.opened.result = .ok s) :
    life.calls = life.opened.calls ++ s.callsOf life.turns ++
      life.closing.calls (s.after life.turns) life.closed := by
  rw [calls, h]

theorem calls_of_error {life : Lifetime} {error : Error} (h : life.opened.result = .error error) :
    life.calls = life.opened.calls := by
  rw [calls, h]

theorem pairwise_allows (life : Lifetime) : life.calls.Pairwise Call.Allows := by
  rcases life.opening.perform_cases life.pid life.replies with
    ⟨s, hok, hopened⟩ | ⟨error, herror, hopened⟩
  · have hturns := s.endsBy_callsOf life.turns
    have hclosed := life.closing.dropped (s.after life.turns) life.closed
    rw [calls_of_ok hok]
    refine EndsBy.pairwise_append (hopened.append hturns ?_ ?_) hclosed.pairwise fun hs => ?_
    · exact fun hs => Session.exited_after hs life.turns
    · exact fun hs => Session.leavesAlone_callsOf hs life.turns
    · simp [hclosed.eq_nil hs]
  · rw [calls_of_error herror]
    exact hopened

/-- Once the session has ended, it leaves the process alone. -/
theorem leavesAlone_of_exited {life : Lifetime} {s : Session} (hs : life.opened.result = .ok s)
    {before rest : List Turn} (hturns : life.turns = before ++ rest)
    (hexited : (s.after before).state = .exited) :
    ∀ call ∈ life.calls.drop (life.opened.calls ++ s.callsOf before).length,
      call.request.touches = false := by
  have hclosed := life.closing.dropped (s.after life.turns) life.closed
  have hover : (s.after life.turns).state = .exited := by
    rw [hturns, Session.after_append]
    exact Session.exited_after hexited rest
  rw [calls_of_ok hs, hclosed.eq_nil hover, List.append_nil, hturns, Session.callsOf_append,
    ← List.append_assoc, List.drop_left]
  exact Session.leavesAlone_callsOf hexited rest

/-- An opening whose wait ends the session makes no call after that wait, and the lifetime is
over. -/
theorem calls_of_exited_wait {life : Lifetime} (hw : life.opening.waits = true) {s : Session}
    (hs : life.begun.result = .ok s) (hexited : (s.wait life.begun.rest).result.2.state = .exited) :
    life.calls = life.begun.calls ++ (s.wait life.begun.rest).calls := by
  have hopened : life.opened = life.begun.followedBy (s.waitOrDrop life.begun.rest) := by
    rw [opened, Opening.perform_of_waits hw]
    exact Attempt.bind_of_ok hs
  have hattaching : s.state = .attaching := by
    rw [Opening.eq_attaching_of_begin hs]
    rfl
  obtain ⟨error, herror⟩ := Session.exists_error_of_exited_wait hattaching hexited
  have hfailed : life.opened.result = .error error := by
    rw [hopened, Exchange.result_followedBy, herror]
  rw [calls_of_error hfailed, hopened, Exchange.calls_followedBy,
    Session.calls_waitOrDrop_of_exited hexited]

/-- In every lifetime of a session, nothing is asked after a request to detach, and nothing about
the process after a report of its end. A turn that ends the session tells that the tracee is gone
in its last call only, and nothing is asked about the process after that turn. So it is with a wait
that ends the session while it is being opened. -/
theorem nothing_after_end (life : Lifetime) :
    life.calls.Pairwise Call.Allows ∧
      (∀ s before turn rest, life.opened.result = .ok s → life.turns = before ++ turn :: rest →
        (s.after before).state ≠ .exited → ((s.after before).take turn).result.2.state = .exited →
        FoundGone ((s.after before).take turn).calls ∧
          ∀ call ∈ life.calls.drop (life.opened.calls ++ s.callsOf (before ++ [turn])).length,
            call.request.touches = false) ∧
      ∀ s, life.opening.waits = true → life.begun.result = .ok s →
        (s.wait life.begun.rest).result.2.state = .exited →
        FoundGone (s.wait life.begun.rest).calls ∧
          life.calls = life.begun.calls ++ (s.wait life.begun.rest).calls := by
  refine ⟨life.pairwise_allows, fun s before turn rest hs hturns hpresent hexited => ⟨?_, ?_⟩,
    fun s hw hs hexited => ⟨?_, calls_of_exited_wait hw hs hexited⟩⟩
  · exact (Session.step_take _ turn).foundGone hpresent hexited
  · refine leavesAlone_of_exited hs (hturns.trans (List.append_cons ..)) ?_
    rw [Session.after_append]
    exact hexited
  · refine (s.step_wait life.begun.rest).foundGone ?_ hexited
    rw [Opening.eq_attaching_of_begin hs]
    simp [Session.attaching]

/-- A child that was taken over exits, is waited for again, and its executable is opened before the
session is dropped. -/
theorem nothing_after_exit :
    let wait : Turn := ⟨.wait, [.ok { status := 0x0300 }]⟩
    let before : List Turn := [⟨.resume none, [.ok {}]⟩]
    let rest : List Turn := [wait, ⟨.machine, [.ok {}]⟩]
    let life : Lifetime := ⟨.adoptStopped, ⟨5⟩, [.ok { status := 0x137f }],
      before ++ wait :: rest, .drop, [.ok {}]⟩
    let s : Session := { Session.attaching ⟨5⟩ with state := .stopped, lastStop := some .attach }
    life.opened.result = .ok s ∧ ((s.after before).take wait).result.2.state = .exited ∧
      FoundGone ((s.after before).take wait).calls ∧
      ∀ call ∈ life.calls.drop 3, call.request.touches = false := by
  intro wait before rest life s
  have hopened : life.opened.result = .ok s := eq_ok_of_toOption (by decide +kernel)
  have hexited : ((s.after before).take wait).result.2.state = .exited := by decide +kernel
  have hcalls : (life.opened.calls ++ s.callsOf (before ++ [wait])).length = 3 := by
    decide +kernel
  obtain ⟨hfound, hlater⟩ := life.nothing_after_end.2.1 s before wait rest hopened rfl
    (by decide +kernel) hexited
  rw [hcalls] at hlater
  exact ⟨hopened, hexited, hfound, hlater⟩

end Lifetime

end ProcTrace
