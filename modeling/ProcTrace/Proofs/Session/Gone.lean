import ProcTrace.Proofs.Session.Run

/-!
# How a session learns that its tracee is gone

A call tells that the tracee is gone if it is a wait that reports its end, or if it fails with one
of the two error numbers that say so. A step that ends the session has found this out in its last
call and in none before (`Step.foundGone`) : a session that learns of the end asks no further.
-/

namespace ProcTrace

namespace Call

/-- A wait that reports the end of the tracee. -/
def reportsEnd (call : Call) : Bool :=
  call.change?.any fun change => !change.isStop

/-- The call tells that the tracee is gone. -/
def tellsGone (call : Call) : Bool :=
  match call.reply with
  | .ok _ => call.reportsEnd
  | .error errno => errno.saysGone

theorem reportsEnd_eq_false {call : Call} (h : ∀ ending, call.change? ≠ some (.ended ending)) :
    call.reportsEnd = false := by
  unfold reportsEnd
  cases hchange : call.change? with
  | none => rfl
  | some change =>
    cases change with
    | stopped report => rfl
    | ended ending => exact absurd hchange (h ending)

/-- A reply that is repeated tells nothing. -/
theorem tellsGone_eq_false_of_idle {pid : Pid} {call : Call}
    (hrequest : call.request = .waitpid pid) (hidle : call.reply.Idle pid) :
    call.tellsGone = false := by
  have hnone := change?_of_idle hrequest hidle
  unfold tellsGone
  split
  next => simp [reportsEnd, hnone]
  next errno hreply =>
    have herrno : errno = .eintr := by simpa [hreply, Reply.Idle, Reply.waitStatus] using hidle
    rw [herrno]
    rfl

end Call

/-! ## Calls that tell, and calls that do not -/

/-- No call tells that the tracee is gone. -/
def ToldNothing (calls : List Call) : Prop :=
  ∀ call ∈ calls, call.tellsGone = false

/-- The last call tells that the tracee is gone, and none before does. -/
def FoundGone (calls : List Call) : Prop :=
  ∃ init last, calls = init ++ [last] ∧ last.tellsGone = true ∧ ToldNothing init

section

variable {pid : Pid} {calls xs ys : List Call}

theorem ToldNothing.append (hx : ToldNothing xs) (hy : ToldNothing ys) :
    ToldNothing (xs ++ ys) := by
  intro call hcall
  rcases List.mem_append.1 hcall with hcall | hcall
  · exact hx call hcall
  · exact hy call hcall

theorem ToldNothing.append_foundGone (hx : ToldNothing xs) (hy : FoundGone ys) :
    FoundGone (xs ++ ys) := by
  obtain ⟨init, last, rfl, hlast, hinit⟩ := hy
  exact ⟨xs ++ init, last, (List.append_assoc ..).symm, hlast, hx.append hinit⟩

theorem FoundGone.exists_tellsGone (h : FoundGone calls) :
    ∃ call ∈ calls, call.tellsGone = true := by
  obtain ⟨init, last, rfl, hlast, -⟩ := h
  exact ⟨last, List.mem_concat_self, hlast⟩

theorem foundGone_singleton {call : Call} (h : call.tellsGone = true) : FoundGone [call] :=
  ⟨[], call, rfl, h, by simp [ToldNothing]⟩

/-- A wait tells in its last call, if at all. -/
theorem Waits.foundGone {reply : Reply} (h : Waits pid calls reply)
    (hlast : Call.tellsGone ⟨.waitpid pid, reply⟩ = true) : FoundGone calls := by
  obtain ⟨idle, rfl, hidle⟩ := h
  refine ⟨idle, _, rfl, hlast, fun call hcall => ?_⟩
  exact Call.tellsGone_eq_false_of_idle (hidle call hcall).1 (hidle call hcall).2

theorem Waits.toldNothing {reply : Reply} (h : Waits pid calls reply)
    (hlast : Call.tellsGone ⟨.waitpid pid, reply⟩ = false) : ToldNothing calls := by
  obtain ⟨idle, rfl, hidle⟩ := h
  refine ToldNothing.append (fun call hcall => ?_) fun call hcall => ?_
  · exact Call.tellsGone_eq_false_of_idle (hidle call hcall).1 (hidle call hcall).2
  · rw [List.mem_singleton.1 hcall]
    exact hlast

/-- A reply that brings a change is no failure. -/
theorem Reply.Ends.tellsGone_of_changed {reply : Reply} {reporter : Pid} {change : Change}
    (h : reply.Ends pid (.ok (reporter, change))) :
    Call.tellsGone ⟨.waitpid pid, reply⟩ = !change.isStop := by
  have hchange := h.change?_eq
  cases h with
  | changed status =>
    cases reply with
    | error errno => cases status
    | ok answer => simp [Call.tellsGone, Call.reportsEnd, hchange]

/-- A wait that fails because the tracee is gone got that very reply. -/
theorem Reply.Ends.tellsGone_of_failed {reply : Reply} {errno : Errno}
    (h : reply.Ends pid (.error errno)) (hgone : errno.saysGone = true) :
    Call.tellsGone ⟨.waitpid pid, reply⟩ = true := by
  cases h with
  | failed status =>
    -- A reply without a reading fails as invalid, which says nothing of the tracee.
    rcases Reply.eq_error_of_waitStatus status with rfl | rfl
    · exact hgone
    · cases hgone

/-! ## The attach phase -/

theorem StopSeen.toldNothing {report : StopReport} (h : StopSeen pid calls report) :
    ToldNothing calls := by
  obtain ⟨_, _, hwaits, hends⟩ := h
  exact hwaits.toldNothing hends.tellsGone_of_changed

theorem StopMissed.foundGone {error : Error} (h : StopMissed pid calls error)
    (hgone : error.traceeGone = true) : FoundGone calls := by
  cases h with
  | failed waits ends =>
    rw [Error.traceeGone_ofErrno_eq] at hgone
    exact waits.foundGone (ends.tellsGone_of_failed hgone)
  | ended waits ends => exact waits.foundGone ends.tellsGone_of_changed

theorem EarlyStops.toldNothing {signals : List Signal} (h : EarlyStops pid calls signals) :
    ToldNothing calls := by
  induction h with
  | nil => simp [ToldNothing]
  | cons answer seen early rest ih =>
    refine seen.toldNothing.append fun call hcall => ?_
    rcases List.mem_cons.1 hcall with rfl | hcall
    · rfl
    · exact ih call hcall

theorem Requeued.toldNothing {signals : List Signal} (h : Requeued pid signals calls) :
    ToldNothing calls := by
  intro call hcall
  obtain ⟨_, _, rfl⟩ := h.of_mem hcall
  rfl

/-- A request that fails because the tracee is gone. -/
theorem foundGone_of_failed {request : Request} {errno : Errno}
    (hgone : (Error.ofErrno pid errno).traceeGone = true) :
    FoundGone [⟨request, .error errno⟩] := by
  rw [Error.traceeGone_ofErrno_eq] at hgone
  exact foundGone_singleton hgone

theorem AttachPhase.foundGone {error : Error} (h : AttachPhase pid calls (.error error))
    (hgone : error.traceeGone = true) : FoundGone calls := by
  cases h with
  | missed missed =>
    cases missed with
    | waiting stops missed => exact stops.toldNothing.append_foundGone (missed.foundGone hgone)
    | restarting errno stops seen =>
      exact stops.toldNothing.append_foundGone
        (seen.toldNothing.append_foundGone (foundGone_of_failed hgone))
  | refused stops seen sent =>
    exact stops.toldNothing.append_foundGone (seen.toldNothing.append_foundGone
      (sent.toldNothing.append_foundGone (foundGone_of_failed hgone)))

end

/-! ## Steps -/

namespace Session

variable {s t : Session} {operation : Operation} {calls : List Call}
  {result : Except Error Outcome}

/-- A change that ends the session is the end of the tracee, or a stop of a tracee that is found
gone. -/
theorem Classified.foundGone_of_exited {change : Change} {waits : List Call} {reply : Reply}
    {reporter : Pid} {classified : Except Error (Stop × Bool)} (hwaits : Waits s.pid waits reply)
    (hends : reply.Ends s.pid (.ok (reporter, change)))
    (h : s.Classified change calls classified) (ht : (s.settle classified).state = .exited) :
    FoundGone (waits ++ calls) := by
  cases h with
  | ended ending =>
    rw [List.append_nil]
    exact hwaits.foundGone hends.tellsGone_of_changed
  | enter | leave | event | unknownEvent | delivery | probedDelivery | group =>
    simp [settle, Stop.isTerminal, Error.traceeGone] at ht
  | @probeFailed signal errno =>
    have hgone : (Error.ofErrno s.pid errno).traceeGone = true := by
      cases hgone : (Error.ofErrno s.pid errno).traceeGone with
      | true => rfl
      | false => simp [settle, hgone, -Error.traceeGone_ofErrno] at ht
    exact (hwaits.toldNothing hends.tellsGone_of_changed).append_foundGone
      (foundGone_of_failed hgone)

/-- A step that ends the session has found the tracee gone in its last call. -/
theorem Step.foundGone (h : s.Step operation calls result t) (hs : s.state ≠ .exited)
    (ht : t.state = .exited) : FoundGone calls := by
  cases h with
  | refused | notResumed | optionsSet | optionsNotSet | read => exact absurd ht hs
  | attachStop | resumed => cases ht
  | @attachFailed _ error state phase =>
    rw [state_afterFailedAttach] at ht
    cases hgone : error.traceeGone with
    | true => exact phase.foundGone hgone
    | false => simp [hgone, state] at ht
  | @waitFailed _ _ errno state waits ends =>
    rw [state_afterFailedWait] at ht
    by_cases hgone : errno = .echild
    · subst hgone
      exact waits.foundGone (ends.tellsGone_of_failed rfl)
    · simp [hgone, state] at ht
  | changed state waits ends means => exact means.foundGone_of_exited waits ends ht

end Session

end ProcTrace
