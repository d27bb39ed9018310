import ProcTrace.Proofs.Transcript

/-!
# The attach phase

The transcripts of waiting for an attach-stop. Stops that come early are restarted one by one
(`EarlyStops`), until a wait sees the attach-stop or something fails (`AttachStopMissed`). The
signals that were kept are sent again after the attach-stop, which can fail as well.
`attachPhase_reachAttachStop` says that these are all transcripts there are, and which result each
of them has.
-/

namespace ProcTrace

/-- The stop that an attach causes. -/
abbrev StopReport.attachStop : StopReport := .signal .stop

/-! ## Waiting for a stop -/

/-- The calls are a wait that saw a stop of `pid`. -/
def StopSeen (pid : Pid) (calls : List Call) (report : StopReport) : Prop :=
  ∃ reply reporter, Waits pid calls reply ∧ reply.Ends pid (.ok (reporter, .stopped report))

/-- The calls are a wait for a stop of `pid` that failed, or that saw the end of the tracee. -/
inductive StopMissed (pid : Pid) (calls : List Call) : Error → Prop
  | failed {reply : Reply} {errno : Errno} (waits : Waits pid calls reply)
      (ends : reply.Ends pid (.error errno)) : StopMissed pid calls (.ofErrno pid errno)
  | ended {reply : Reply} {reporter : Pid} {ending : Ending} (waits : Waits pid calls reply)
      (ends : reply.Ends pid (.ok (reporter, .ended ending))) :
      StopMissed pid calls (.noSuchProcess pid .esrch)

theorem nextStop_cases (pid : Pid) (replies : List Reply) :
    (∃ reporter report, StopSeen pid (nextStop pid replies).calls report ∧
      (nextStop pid replies).result = .ok (reporter, report)) ∨
    ∃ error, StopMissed pid (nextStop pid replies).calls error ∧
      (nextStop pid replies).result = .error error := by
  obtain ⟨reply, hwaits, hends⟩ :=
    exists_waits_nextChange pid (fun status => [.ignoredStatus status]) replies
  generalize hx : nextChange pid (fun status => [.ignoredStatus status]) replies = x at hwaits hends
  obtain ⟨change, calls, log, rest⟩ := x
  have hnext : nextStop pid replies = Exchange.followedBy ⟨change, calls, log, rest⟩
      (stopOfChange pid change rest) := by
    simp only [nextStop, hx]
  have hcalls : (nextStop pid replies).calls = calls := by
    rw [hnext]
    rcases change with errno | ⟨reporter, report | ending⟩
    all_goals exact List.append_nil calls
  rw [hcalls, hnext]
  rcases change with errno | ⟨reporter, report | ending⟩
  · exact Or.inr ⟨_, .failed hwaits hends, rfl⟩
  · exact Or.inl ⟨reporter, report, ⟨reply, reporter, hwaits, hends⟩, rfl⟩
  · exact Or.inr ⟨_, .ended hwaits hends, rfl⟩

/-! ## Stops before the attach-stop -/

/-- Early stops of `pid`, each seen by a wait and restarted, with the signals they leave to be sent
again. -/
inductive EarlyStops (pid : Pid) : List Call → List Signal → Prop
  | nil : EarlyStops pid [] []
  | cons {waits calls : List Call} {report : StopReport} {signals : List Signal} (answer : Answer)
      (seen : StopSeen pid waits report) (early : report ≠ .attachStop)
      (rest : EarlyStops pid calls signals) :
      EarlyStops pid (waits ++ ⟨.cont pid none, .ok answer⟩ :: calls) (report.deferred ++ signals)

/-- The attach-stop was not seen : after some early stops a wait failed, or a restart. -/
inductive AttachStopMissed (pid : Pid) : List Call → Error → Prop
  | waiting {early waits : List Call} {signals : List Signal} {error : Error}
      (stops : EarlyStops pid early signals) (missed : StopMissed pid waits error) :
      AttachStopMissed pid (early ++ waits) error
  | restarting {early waits : List Call} {signals : List Signal} {report : StopReport}
      (errno : Errno) (stops : EarlyStops pid early signals) (seen : StopSeen pid waits report)
      (notYet : report ≠ .attachStop) :
      AttachStopMissed pid (early ++ (waits ++ [⟨.cont pid none, .error errno⟩]))
        (.ofErrno pid errno)

theorem AttachStopMissed.cons {pid : Pid} {waits calls : List Call} {report : StopReport}
    {error : Error} (answer : Answer) (seen : StopSeen pid waits report)
    (early : report ≠ .attachStop) (missed : AttachStopMissed pid calls error) :
    AttachStopMissed pid (waits ++ ⟨.cont pid none, .ok answer⟩ :: calls) error := by
  cases missed with
  | waiting stops missed =>
    have h := AttachStopMissed.waiting (.cons answer seen early stops) missed
    simpa only [List.append_assoc, List.cons_append] using h
  | restarting errno stops seen' notYet =>
    have h := AttachStopMissed.restarting errno (.cons answer seen early stops) seen' notYet
    simpa only [List.append_assoc, List.cons_append] using h

/-- One step of the loop sees the attach-stop, restarts an early stop, or fails. -/
theorem passStop_cases (pid : Pid) (deferred : List Signal) (replies : List Reply) :
    (StopSeen pid (passStop pid deferred replies).calls .attachStop ∧
      (passStop pid deferred replies).result = .ok (.inl deferred)) ∨
    (∃ waits report answer, StopSeen pid waits report ∧ report ≠ .attachStop ∧
      (passStop pid deferred replies).calls = waits ++ [⟨.cont pid none, .ok answer⟩] ∧
      (passStop pid deferred replies).result = .ok (.inr (deferred ++ report.deferred))) ∨
    ∃ error, AttachStopMissed pid (passStop pid deferred replies).calls error ∧
      (passStop pid deferred replies).result = .error error := by
  rcases nextStop_cases pid replies with ⟨reporter, report, hseen, hr⟩ | ⟨error, hmissed, hr⟩
  · by_cases hreport : report = .attachStop
    · refine Or.inl ?_
      rw [passStop, Attempt.bind_of_ok hr]
      simp only [if_pos hreport, Attempt.pure_apply, Exchange.calls_followedBy, List.append_nil,
        Exchange.result_followedBy, and_true]
      exact hreport ▸ hseen
    · refine Or.inr ?_
      rw [passStop, Attempt.bind_of_ok hr]
      simp only [if_neg hreport]
      rcases Attempt.note_command_pure_cases (report.earlyNote pid reporter) pid (.cont pid none)
          (Sum.inr (deferred ++ report.deferred)) (nextStop pid replies).rest with
        ⟨answer, hc, ha⟩ | ⟨errno, hc, he⟩
      · refine Or.inl ⟨_, report, answer, hseen, hreport, ?_, ha⟩
        rw [Exchange.calls_followedBy, hc]
      · refine Or.inr ⟨_, ?_, he⟩
        rw [Exchange.calls_followedBy, hc]
        simpa only [List.nil_append] using AttachStopMissed.restarting errno .nil hseen hreport
  · refine Or.inr (Or.inr ⟨error, ?_, ?_⟩)
    · rw [passStop, Attempt.bind_of_error hr, Exchange.calls_withResult]
      simpa only [List.nil_append] using AttachStopMissed.waiting .nil hmissed
    · rw [passStop, Attempt.bind_of_error hr, Exchange.result_withResult]

/-- What the loop comes to from the signals `deferred` on : it sees the attach-stop, and gives the
signals of the early stops as well, or it fails. -/
def StopsPassed (pid : Pid) (deferred : List Signal) (x : Exchange (Except Error (List Signal))) :
    Prop :=
  (∃ early waits signals, EarlyStops pid early signals ∧ StopSeen pid waits .attachStop ∧
    x.calls = early ++ waits ∧ x.result = .ok (deferred ++ signals)) ∨
  ∃ error, AttachStopMissed pid x.calls error ∧ x.result = .error error

/-- An early stop comes before what the loop does after it. -/
theorem StopsPassed.cons {pid : Pid} {deferred : List Signal} {waits : List Call}
    {report : StopReport} {answer : Answer} (seen : StopSeen pid waits report)
    (early : report ≠ .attachStop) {α : Type} {x : Exchange α}
    {y : Exchange (Except Error (List Signal))}
    (hx : x.calls = waits ++ [⟨.cont pid none, .ok answer⟩])
    (hy : StopsPassed pid (deferred ++ report.deferred) y) :
    StopsPassed pid deferred (x.followedBy y) := by
  rcases hy with ⟨stops, last, signals, hstops, hattach, hc, hr⟩ | ⟨error, hmissed, hr⟩
  · refine Or.inl ⟨_, last, _, .cons answer seen early hstops, hattach, ?_, ?_⟩
    · rw [Exchange.calls_followedBy, hx, hc]
      simp
    · rw [Exchange.result_followedBy, hr, List.append_assoc]
  · refine Or.inr ⟨error, ?_, hr⟩
    rw [Exchange.calls_followedBy, hx, List.append_assoc]
    exact hmissed.cons answer seen early

theorem stopsPassed_passStops (pid : Pid) (replies : List Reply) :
    StopsPassed pid [] (passStops pid replies) := by
  -- The signals kept so far only grow, so each state says what is added to its own.
  refine Attempt.loop_induction (motive := fun deferred _ x => StopsPassed pid deferred x)
    ?failed ?done ?next [] replies
  case failed =>
    intro deferred replies error he
    rcases passStop_cases pid deferred replies with ⟨_, hr⟩ | ⟨_, _, _, _, _, _, hr⟩ |
      ⟨error', hmissed, hr⟩
    · simp [hr] at he
    · simp [hr] at he
    · obtain rfl : error' = error := by simpa [hr] using he
      exact Or.inr ⟨error', hmissed, rfl⟩
  case done =>
    intro deferred replies signals ha
    rcases passStop_cases pid deferred replies with ⟨hseen, hr⟩ | ⟨_, _, _, _, _, _, hr⟩ |
      ⟨_, _, hr⟩
    · obtain rfl : deferred = signals := by simpa [hr] using ha
      exact Or.inl ⟨[], _, [], .nil, hseen, rfl, by simp⟩
    · simp [hr] at ha
    · simp [hr] at ha
  case next =>
    intro deferred replies next hn ih
    rcases passStop_cases pid deferred replies with ⟨_, hr⟩ |
      ⟨waits, report, answer, hseen, hearly, hcalls, hr⟩ | ⟨_, _, hr⟩
    · simp [hr] at hn
    · obtain rfl : deferred ++ report.deferred = next := by simpa [hr] using hn
      exact ih.cons hseen hearly hcalls
    · simp [hr] at hn

/-! ## Sending the signals again -/

/-- Every signal was sent to `pid` again, in order. -/
inductive Requeued (pid : Pid) : List Signal → List Call → Prop
  | nil : Requeued pid [] []
  | cons {signal : Signal} {signals : List Signal} {calls : List Call} (answer : Answer)
      (rest : Requeued pid signals calls) :
      Requeued pid (signal :: signals) (⟨.kill pid signal, .ok answer⟩ :: calls)

/-- The signals are sent one by one, up to the first that cannot be sent. -/
theorem requeue_cases (pid : Pid) (signals : List Signal) (replies : List Reply) :
    let x : Attempt Unit := signals.forM fun signal => Attempt.command pid (.kill pid signal)
    (Requeued pid signals (x replies).calls ∧ (x replies).result = .ok ()) ∨
    ∃ sent signal unsent kills errno, signals = sent ++ signal :: unsent ∧
      Requeued pid sent kills ∧ (x replies).calls = kills ++ [⟨.kill pid signal, .error errno⟩] ∧
      (x replies).result = .error (.ofErrno pid errno) := by
  induction signals generalizing replies with
  | nil => exact Or.inl ⟨.nil, rfl⟩
  | cons signal signals ih =>
    intro x
    have hx : x = Attempt.command pid (.kill pid signal) >>= fun _ =>
        signals.forM fun signal => Attempt.command pid (.kill pid signal) := rfl
    rcases Attempt.command_cases pid (.kill pid signal) replies with
      ⟨answer, hc, hr⟩ | ⟨errno, hc, hr⟩
    · rw [hx, Attempt.bind_of_ok hr]
      rcases ih (Attempt.command pid (.kill pid signal) replies).rest with
        ⟨hsent, hok⟩ | ⟨sent, refused, unsent, kills, errno, rfl, hsent, hcalls, herror⟩
      · refine Or.inl ⟨?_, hok⟩
        rw [Exchange.calls_followedBy, hc]
        exact .cons answer hsent
      · refine Or.inr ⟨signal :: sent, refused, unsent, _, errno, rfl, .cons answer hsent, ?_,
          herror⟩
        rw [Exchange.calls_followedBy, hc, hcalls]
        rfl
    · rw [hx, Attempt.bind_of_error hr]
      exact Or.inr ⟨[], signal, signals, [], errno, rfl, .nil, hc, rfl⟩

/-! ## The whole phase -/

/-- The transcripts of waiting for the attach-stop, with their results. -/
inductive AttachPhase (pid : Pid) : List Call → Except Error Unit → Prop
  | missed {calls : List Call} {error : Error} (missed : AttachStopMissed pid calls error) :
      AttachPhase pid calls (.error error)
  | reached {early waits kills : List Call} {signals : List Signal}
      (stops : EarlyStops pid early signals) (seen : StopSeen pid waits .attachStop)
      (sent : Requeued pid signals kills) : AttachPhase pid (early ++ (waits ++ kills)) (.ok ())
  | refused {early waits kills : List Call} {sent unsent : List Signal} {signal : Signal}
      {errno : Errno} (stops : EarlyStops pid early (sent ++ signal :: unsent))
      (seen : StopSeen pid waits .attachStop) (requeued : Requeued pid sent kills) :
      AttachPhase pid (early ++ (waits ++ (kills ++ [⟨.kill pid signal, .error errno⟩])))
        (.error (.ofErrno pid errno))

theorem attachPhase_reachAttachStop (pid : Pid) (replies : List Reply) :
    AttachPhase pid (reachAttachStop pid replies).calls (reachAttachStop pid replies).result := by
  rcases stopsPassed_passStops pid replies with
    ⟨early, waits, signals, hstops, hseen, hc, hr⟩ | ⟨error, hmissed, hr⟩
  · rw [reachAttachStop, Attempt.bind_of_ok hr, Exchange.calls_followedBy, hc, List.append_assoc,
      Exchange.result_followedBy, List.nil_append]
    rcases requeue_cases pid signals (passStops pid replies).rest with
      ⟨hsent, hok⟩ | ⟨sent, signal, unsent, kills, errno, rfl, hsent, hcalls, herror⟩
    · rw [hok]
      exact .reached hstops hseen hsent
    · rw [hcalls, herror]
      exact .refused hstops hseen hsent
  · rw [reachAttachStop, Attempt.bind_of_error hr, Exchange.calls_withResult,
      Exchange.result_withResult]
    exact .missed hmissed

/-! ## What the calls ask and tell -/

theorem StopSeen.request {pid : Pid} {calls : List Call} {report : StopReport}
    (h : StopSeen pid calls report) {call : Call} (hcall : call ∈ calls) :
    call.request = .waitpid pid := by
  obtain ⟨_, _, hwaits, _⟩ := h
  exact hwaits.request hcall

theorem StopSeen.change?_of_mem {pid : Pid} {calls : List Call} {report : StopReport}
    (h : StopSeen pid calls report) {call : Call} (hcall : call ∈ calls) :
    call.change? = none ∨ call.change? = some (.stopped report) := by
  obtain ⟨_, _, hwaits, hends⟩ := h
  rw [← hends.change?_eq]
  exact hwaits.change?_of_mem hcall

theorem StopMissed.request {pid : Pid} {calls : List Call} {error : Error}
    (h : StopMissed pid calls error) {call : Call} (hcall : call ∈ calls) :
    call.request = .waitpid pid := by
  cases h with
  | failed waits | ended waits => exact waits.request hcall

/-- A wait that misses a stop tells of none. -/
theorem StopMissed.change?_ne_stopped {pid : Pid} {calls : List Call} {error : Error}
    (h : StopMissed pid calls error) {call : Call} (hcall : call ∈ calls) (report : StopReport) :
    call.change? ≠ some (.stopped report) := by
  cases h with
  | failed waits ends =>
    rcases waits.change?_of_mem hcall with h | h
    · simp [h]
    · simp [h, ends.change?_eq_none]
  | ended waits ends =>
    rcases waits.change?_of_mem hcall with h | h
    · simp [h]
    · simp [h, ends.change?_eq]

/-- Early stops ask for waits and restarts, and tell of no other stops. -/
theorem EarlyStops.of_mem {pid : Pid} {calls : List Call} {signals : List Signal}
    (h : EarlyStops pid calls signals) {call : Call} (hcall : call ∈ calls) :
    (call.request = .waitpid pid ∨ call.request = .cont pid none) ∧
      (call.change? = none ∨
        ∃ report, report ≠ .attachStop ∧ call.change? = some (.stopped report)) := by
  induction h with
  | nil => cases hcall
  | @cons waits calls report signals answer seen early rest ih =>
    rcases List.mem_append.1 hcall with hcall | hcall
    · refine ⟨Or.inl (seen.request hcall), ?_⟩
      rcases seen.change?_of_mem hcall with h | h
      · exact Or.inl h
      · exact Or.inr ⟨report, early, h⟩
    · rcases List.mem_cons.1 hcall with rfl | hcall
      · exact ⟨Or.inr rfl, Or.inl rfl⟩
      · exact ih hcall

/-- Signals are sent again by calls that succeed. -/
theorem Requeued.of_mem {pid : Pid} {calls : List Call} {signals : List Signal}
    (h : Requeued pid signals calls) {call : Call} (hcall : call ∈ calls) :
    ∃ signal answer, call = ⟨.kill pid signal, .ok answer⟩ := by
  induction h with
  | nil => cases hcall
  | cons answer rest ih =>
    rcases List.mem_cons.1 hcall with rfl | hcall
    · exact ⟨_, answer, rfl⟩
    · exact ih hcall

/-- A phase that misses the attach-stop tells of none. -/
theorem AttachStopMissed.change?_ne {pid : Pid} {calls : List Call} {error : Error}
    (h : AttachStopMissed pid calls error) {call : Call} (hcall : call ∈ calls) :
    call.change? ≠ some (.stopped .attachStop) := by
  have hearly {early : List Call} {signals : List Signal} (stops : EarlyStops pid early signals)
      (hcall : call ∈ early) : call.change? ≠ some (.stopped .attachStop) := by
    rcases (stops.of_mem hcall).2 with h | ⟨report, hreport, h⟩
    · simp [h]
    · simpa [h] using hreport
  cases h with
  | waiting stops missed =>
    rcases List.mem_append.1 hcall with hcall | hcall
    · exact hearly stops hcall
    · exact missed.change?_ne_stopped hcall _
  | restarting errno stops seen notYet =>
    rcases List.mem_append.1 hcall with hcall | hcall
    · exact hearly stops hcall
    · rcases List.mem_append.1 hcall with hcall | hcall
      · rcases seen.change?_of_mem hcall with h | h
        · simp [h]
        · simpa [h] using notYet
      · rw [List.mem_singleton.1 hcall]
        simp [Call.change?]

/-! ## The first call -/

theorem StopSeen.exists_wait_append {pid : Pid} {calls : List Call} {report : StopReport}
    (h : StopSeen pid calls report) (more : List Call) :
    ∃ reply rest, calls ++ more = ⟨.waitpid pid, reply⟩ :: rest := by
  obtain ⟨_, _, hwaits, _⟩ := h
  obtain ⟨first, rest, rfl⟩ := hwaits.exists_cons
  exact ⟨first, rest ++ more, rfl⟩

theorem StopMissed.exists_wait {pid : Pid} {calls : List Call} {error : Error}
    (h : StopMissed pid calls error) : ∃ reply rest, calls = ⟨.waitpid pid, reply⟩ :: rest := by
  cases h with
  | failed waits | ended waits => exact waits.exists_cons

/-- Early stops, if there are any, begin with a wait. -/
theorem EarlyStops.exists_wait_append {pid : Pid} {early calls : List Call} {signals : List Signal}
    (h : EarlyStops pid early signals) (hc : ∃ reply rest, calls = ⟨.waitpid pid, reply⟩ :: rest) :
    ∃ reply rest, early ++ calls = ⟨.waitpid pid, reply⟩ :: rest := by
  cases h with
  | nil => exact hc
  | cons answer seen =>
    rw [List.append_assoc]
    exact seen.exists_wait_append _

/-- The phase begins with a wait. -/
theorem AttachPhase.exists_wait {pid : Pid} {calls : List Call} {result : Except Error Unit}
    (h : AttachPhase pid calls result) : ∃ reply rest, calls = ⟨.waitpid pid, reply⟩ :: rest := by
  cases h with
  | missed missed =>
    cases missed with
    | waiting stops missed => exact stops.exists_wait_append missed.exists_wait
    | restarting errno stops seen => exact stops.exists_wait_append (seen.exists_wait_append _)
  | reached stops seen => exact stops.exists_wait_append (seen.exists_wait_append _)
  | refused stops seen => exact stops.exists_wait_append (seen.exists_wait_append _)

end ProcTrace
