import ProcTrace.Proofs.Session.Run

/-!
# Status words and what a wait makes of them

A status word tells of a stop or an end and names its signal by a number, which need not be that of
a standard signal. `WordReport` keeps the number as it is, so it says of every word what became of
the tracee. `decode?_eq` reads a word by way of its report, and `exists_change?_iff` says which
reports have a reading : those whose signal has a name.

A running session that takes notice of a report has stopped or ended with its tracee, except after
a report without a reading : that one is taken for a failed wait, and the session goes on as
running although the report is used up (`wait_settles_iff_readable`).
-/

namespace ProcTrace

/-- A request for the origin of a signal that finds the tracee gone. -/
def Call.findsGone (call : Call) : Bool :=
  match call.request, call.reply with
  | .signalInfo _, .error errno => errno.saysGone
  | _, _ => false

/-- What a status word tells of a tracee, with its signal as a mere number. -/
inductive WordReport
  | exited (code : Nat)
  | killed (signal : Nat) (coreDumped : Bool)
  | stopped (signal : Nat) (code : Int)
  deriving DecidableEq, Repr

/-- The standard signals are those from 1 to 31. -/
theorem Signal.exists_ofNumber?_iff {n : Nat} :
    (∃ signal, Signal.ofNumber? n = some signal) ↔ 1 ≤ n ∧ n ≤ 31 := by
  constructor
  · rintro ⟨signal, h⟩
    rw [← Signal.number_of_ofNumber? h]
    cases signal <;> decide
  · rintro ⟨h1, h31⟩
    have hall : ∀ k : Fin 32, 1 ≤ k.val → (Signal.ofNumber? k.val).isSome = true := by decide
    exact Option.isSome_iff_exists.1 (hall ⟨n, by omega⟩ h1)

namespace WordReport

/-- The report of a status word, none if the word tells of no change. -/
def ofWord? (word : Int32) : Option WordReport :=
  let low := word.toInt % 128
  let second := (word.toInt / 256 % 256).toNat
  if low = 0 then some (.exited second)
  else if low ≠ 127 then some (.killed low.toNat (word.toInt / 128 % 2 = 1))
  else if word.toInt / 128 % 2 = 0 then some (.stopped second (word.toInt / 65536))
  else none

/-- The report is about a stop. -/
def isStop : WordReport → Bool
  | stopped _ _ => true
  | exited _ | killed _ _ => false

/-- The report can be read : its signal, if it has one, is a standard signal or the mark of a
syscall-stop. -/
def Readable : WordReport → Prop
  | exited _ => True
  | killed signal _ => 1 ≤ signal ∧ signal ≤ 31
  | stopped signal _ => signal = WaitStatus.syscallMark ∨ 1 ≤ signal ∧ signal ≤ 31

/-- The change that is reported, none if the report cannot be read. -/
def change? : WordReport → Option Change
  | exited code => some (.ended (.exited code))
  | killed signal coreDumped =>
    (Signal.ofNumber? signal).map fun signal => .ended (.killed signal coreDumped)
  | stopped signal code => (WaitStatus.stopReport? signal code).map .stopped

theorem decode?_eq (pid : Pid) {word : Int32} {report : WordReport}
    (h : ofWord? word = some report) :
    WaitStatus.decode? pid word = report.change?.map (.changed pid) := by
  unfold ofWord? at h
  unfold WaitStatus.decode?
  dsimp only at h ⊢
  split at h
  next h0 =>
    cases h
    rw [if_pos h0]
    rfl
  next h0 =>
    rw [if_neg h0]
    split at h
    next h127 =>
      cases h
      rw [if_pos h127, change?, Option.map_map]
      rfl
    next h127 =>
      rw [if_neg h127]
      split at h
      next hbit =>
        cases h
        rw [if_pos hbit, change?, Option.map_map]
        rfl
      next => cases h

/-- The readable reports are those of a change. -/
theorem exists_change?_iff {report : WordReport} :
    (∃ change, report.change? = some change) ↔ report.Readable := by
  rw [← Option.isSome_iff_exists]
  cases report with
  | exited code => simp [change?, Readable]
  | killed signal coreDumped =>
    rw [change?, Option.isSome_map, Option.isSome_iff_exists, Signal.exists_ofNumber?_iff]
    rfl
  | stopped signal code =>
    rw [change?, Option.isSome_map, WaitStatus.stopReport?, Readable]
    by_cases hmark : signal = WaitStatus.syscallMark
    · simp [hmark]
    · rw [if_neg hmark, or_iff_right hmark, ← Signal.exists_ofNumber?_iff,
        ← Option.isSome_iff_exists]
      split <;> rw [Option.isSome_map]

/-- A report of a stop is read as one, and a report of an end too. -/
theorem isStop_of_change? {report : WordReport} {change : Change}
    (h : report.change? = some change) :
    report.isStop = change.isStop := by
  cases report with
  | exited code =>
    cases h
    rfl
  | killed signal coreDumped =>
    obtain ⟨_, _, rfl⟩ := Option.map_eq_some_iff.1 h
    rfl
  | stopped signal code =>
    obtain ⟨_, _, rfl⟩ := Option.map_eq_some_iff.1 h
    rfl

/-- The state that a report has to leave a session in, given the calls of the wait : a stop leaves
it stopped, unless the tracee is found gone when the signal's origin is asked for. -/
def stateAfter (report : WordReport) (calls : List Call) : State :=
  if report.isStop = true ∧ calls.any Call.findsGone = false then .stopped else .exited

end WordReport

/-! ## The report that ends a wait -/

/-- The report that a call brings, none if it is no wait, fails, or has nothing to report. -/
def Call.wordReport? (call : Call) : Option WordReport :=
  match call.request, call.reply with
  | .waitpid pid, .ok answer =>
    if (answer.waited pid).number = 0 then none else WordReport.ofWord? answer.status
  | _, _ => none

/-- A report with a reading ends the wait with its change. One without a reading ends it as if it
had failed. -/
theorem ends_of_wordReport? {pid : Pid} {reply : Reply} {report : WordReport}
    (h : Call.wordReport? ⟨.waitpid pid, reply⟩ = some report) :
    (∃ reporter change, report.change? = some change ∧ reply.Ends pid (.ok (reporter, change))) ∨
      report.change? = none ∧ reply.Ends pid (.error .einval) := by
  cases reply with
  | error errno => cases h
  | ok answer =>
    simp only [Call.wordReport?] at h
    split at h
    next => cases h
    next hsome =>
      have hstatus := WordReport.decode?_eq (answer.waited pid) h
      cases hchange : report.change? with
      | some change =>
        refine Or.inl ⟨answer.waited pid, change, rfl, .changed ?_⟩
        simp [Reply.waitStatus, hsome, hstatus, hchange]
      | none =>
        refine Or.inr ⟨rfl, .failed ?_ (by decide)⟩
        simp [Reply.waitStatus, hsome, hstatus, hchange]

/-- A report in the calls of a wait is the one that ends it. -/
theorem ends_of_report {pid : Pid} {calls : List Call} {reply : Reply} (h : Waits pid calls reply)
    {call : Call} (hcall : call ∈ calls) {report : WordReport}
    (hreport : call.wordReport? = some report) :
    (∃ reporter change, report.change? = some change ∧ reply.Ends pid (.ok (reporter, change))) ∨
      report.change? = none ∧ reply.Ends pid (.error .einval) := by
  have hrequest := h.request hcall
  obtain ⟨request, answered⟩ := call
  obtain rfl : request = .waitpid pid := hrequest
  have hends := ends_of_wordReport? hreport
  have hnot : ¬answered.Idle pid := by
    rcases hends with ⟨_, _, _, hends⟩ | ⟨_, hends⟩
    · exact hends.not_idle
    · exact hends.not_idle
  obtain rfl : answered = reply := h.eq_of_not_idle hcall hnot
  exact hends

namespace WordReport

theorem stateAfter_ne_continuing (report : WordReport) (calls : List Call) :
    report.stateAfter calls ≠ .continuing := by
  unfold stateAfter
  split <;> simp

/-- A wait asks for no signal's origin. -/
theorem stateAfter_append_of_waits {pid : Pid} {calls probe : List Call} {reply : Reply}
    (h : Waits pid calls reply) (report : WordReport) :
    report.stateAfter (calls ++ probe) = report.stateAfter probe := by
  have hwaits : calls.any Call.findsGone = false := by
    rw [List.any_eq_false]
    intro call hcall
    simp [Call.findsGone, h.request hcall]
  simp only [stateAfter, List.any_append, hwaits, Bool.false_or]

end WordReport

namespace Session

variable {s : Session} {probe : List Call} {change : Change}
  {classified : Except Error (Stop × Bool)}

/-- A change leaves the session in the state that its report asks for. -/
theorem Classified.state_settle (h : s.Classified change probe classified) {report : WordReport}
    (hreport : report.change? = some change) :
    (s.settle classified).state = report.stateAfter probe := by
  have hstop := WordReport.isStop_of_change? hreport
  unfold WordReport.stateAfter
  cases h with
  | ended | enter | leave | event | delivery | probedDelivery =>
    simp [hstop, Change.isStop, settle, Stop.isTerminal, Call.findsGone]
  | unknownEvent => simp [hstop, Change.isStop, settle, Error.traceeGone]
  | group =>
    have hthere : Errno.einval.saysGone = false := by decide
    simp [hstop, Change.isStop, settle, Stop.isTerminal, Call.findsGone, hthere]
  | @probeFailed signal errno =>
    have hgone := Error.traceeGone_ofErrno_eq s.pid errno
    cases hsays : errno.saysGone with
    | true => simp [settle, hgone, hsays, Call.findsGone, -Error.traceeGone_ofErrno]
    | false =>
      simp [hstop, Change.isStop, settle, hgone, hsays, Call.findsGone, -Error.traceeGone_ofErrno]

/-- A wait of a running session that brings a report leaves the session in the state that the
report asks for exactly if the report can be read. Otherwise it fails as invalid, and the session
is running as before. -/
theorem wait_settles_iff_readable (hs : s.state = .continuing) (replies : List Reply) {call : Call}
    (hcall : call ∈ (s.wait replies).calls) {report : WordReport}
    (hreport : call.wordReport? = some report) :
    ((s.wait replies).result.2.state = report.stateAfter (s.wait replies).calls ↔
        report.Readable) ∧
      (¬report.Readable → (s.wait replies).result = (.error (.os .einval), s)) := by
  rw [← WordReport.exists_change?_iff]
  rcases wait_continuing_cases hs replies with
    ⟨reply, errno, hwaits, hends, hr⟩ |
      ⟨waits, probe, reply, reporter, change, classified, hwaits, hends, hmeans, hc, hr⟩
  · -- The report, if it is the one that made the wait fail, has no reading.
    rcases ends_of_report hwaits hcall hreport with ⟨_, _, _, hread⟩ | ⟨hnone, hfailed⟩
    · cases hends.unique hread
    · cases hends.unique hfailed
      have hkept : s.afterFailedWait .einval = s := rfl
      have herror : Error.ofErrno s.pid .einval = .os .einval := rfl
      rw [hr, hkept, herror, hs, hnone]
      refine ⟨⟨fun h => ?_, fun ⟨_, h⟩ => by cases h⟩, fun _ => rfl⟩
      exact absurd h.symm (WordReport.stateAfter_ne_continuing _ _)
  · rw [hc] at hcall ⊢
    rcases List.mem_append.1 hcall with hcall | hcall
    · rcases ends_of_report hwaits hcall hreport with ⟨_, _, hchange, hread⟩ | ⟨_, hfailed⟩
      · cases hends.unique hread
        refine ⟨⟨fun _ => ⟨_, hchange⟩, fun _ => ?_⟩, fun h => absurd ⟨_, hchange⟩ h⟩
        rw [hr, hmeans.state_settle hchange, WordReport.stateAfter_append_of_waits hwaits]
      · cases hends.unique hfailed
    · simp [Call.wordReport?, hmeans.request_eq hcall] at hreport

/-- An interrupted wait is repeated and brings a group-stop, but the tracee is gone when the origin
of its signal is asked for. -/
theorem wait_settles_of_group_stop :
    let s : Session := ⟨⟨5⟩, .continuing, none, none, false⟩
    let replies : List Reply := [.error .eintr, .ok { status := 0x137f }, .error .esrch]
    let report : WordReport := .stopped 19 0
    (∃ call ∈ (s.wait replies).calls, call.wordReport? = some report) ∧
      (s.wait replies).result.2.state = report.stateAfter (s.wait replies).calls := by
  intro s replies report
  have hcall : (⟨.waitpid ⟨5⟩, .ok { status := 0x137f }⟩ : Call) ∈ (s.wait replies).calls :=
    List.mem_cons_of_mem _ (List.mem_cons_self ..)
  have hreport : Call.wordReport? ⟨.waitpid ⟨5⟩, .ok { status := 0x137f }⟩ = some report := by
    decide
  exact ⟨⟨_, hcall, hreport⟩, (wait_settles_iff_readable rfl replies hcall hreport).1.2 (by
    simp [report, WordReport.Readable])⟩

/-- A stop by the real-time signal 34 is reported, and the session goes on as running. -/
theorem continuing_after_stop_by_signal_34 :
    let s : Session := ⟨⟨5⟩, .continuing, none, none, false⟩
    let replies : List Reply := [.ok { status := 0x227f }]
    let report : WordReport := .stopped 34 0
    (∃ call ∈ (s.wait replies).calls, call.wordReport? = some report) ∧
      report.isStop = true ∧ (s.wait replies).result.2.state = .continuing := by
  intro s replies report
  have hcall : (⟨.waitpid ⟨5⟩, .ok { status := 0x227f }⟩ : Call) ∈ (s.wait replies).calls :=
    List.mem_cons_self ..
  exact ⟨⟨_, hcall, by decide⟩, rfl, by decide +kernel⟩

end Session

end ProcTrace
