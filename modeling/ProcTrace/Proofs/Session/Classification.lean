import ProcTrace.Proofs.StatusBits

/-!
# How a session classifies a change

A running session passes over idle replies and takes the first status word that tells of a change.
`wait_classifies` says for every such word, bit by bit, what is asked further, what the wait gives
and what the session is afterwards. The reply that follows matters only to a stop by a signal that
can stop a group.

A session that has seen a stop is stopped, whether the stop could be classified or not
(`Session.stoppedBy`, `Session.unclassified`), unless the tracee is found gone.
-/

namespace ProcTrace

/-- The code by which the kernel reports an event. -/
def Event.code : Event → Int
  | fork => 1
  | vfork => 2
  | clone => 3
  | exec => 4
  | vforkDone => 5
  | exit => 6
  | seccomp => 7
  | stop => 128

theorem Event.ofCode?_eq_some_iff {code : Int} {event : Event} :
    Event.ofCode? code = some event ↔ event.code = code := by
  constructor
  · intro h
    unfold ofCode? at h
    split at h <;> cases h <;> rfl
  · rintro rfl
    cases event <;> rfl

theorem Event.midSyscall_iff {event : Event} :
    event.midSyscall = true ↔ event ∈ [.exec, .seccomp] := by
  cases event <;> decide

theorem Signal.mayStopGroup_iff {signal : Signal} :
    signal.mayStopGroup = true ↔ signal ∈ [.stop, .tstp, .ttin, .ttou] := by
  cases signal <;> decide

namespace Session

/-- The session after a stop that was classified. -/
def stoppedBy (s : Session) (stop : Stop) (inSyscall : Bool) : Session :=
  { s with state := .stopped, lastStop := some stop, inSyscall }

/-- The session after a stop that could not be classified. -/
def unclassified (s : Session) : Session :=
  { s with state := .stopped, lastStop := none }

/-- The session after the tracee was found gone at a stop. -/
def foundGone (s : Session) : Session :=
  { s with state := .exited, lastStop := none }

/-- The session after an end. -/
def endedBy (s : Session) (ending : Ending) : Session :=
  { s with state := .exited, lastStop := some (.ended ending) }

/-- What a session does once it is told of a change, where `probe` is the next reply : the calls it
makes, and the result of the wait with the session afterwards. -/
def TakesNotice (s : Session) (change : Change) (probe : Reply) (asked : List Call)
    (result : Except Error Stop × Session) : Prop :=
  match change with
  | .ended ending => asked = [] ∧ result = (.ok (.ended ending), s.endedBy ending)
  | .stopped (.signal signal) =>
    let delivered : Except Error Stop × Session :=
      (.ok (.signalDelivery signal), s.stoppedBy (.signalDelivery signal) s.inSyscall)
    if signal ∈ [.stop, .tstp, .ttin, .ttou] then
      asked = [⟨.signalInfo s.pid, probe⟩] ∧ result =
        match probe with
        | .ok _ => delivered
        | .error errno =>
          if errno = .einval then (.ok (.group signal), s.stoppedBy (.group signal) s.inSyscall)
          else
            (.error (.ofErrno s.pid errno),
              if errno = .esrch ∨ errno = .echild then s.foundGone else s.unclassified)
    else asked = [] ∧ result = delivered
  | .stopped .syscall =>
    asked = [] ∧ result =
      if s.inSyscall then (.ok .syscallExit, s.stoppedBy .syscallExit false)
      else (.ok .syscallEnter, s.stoppedBy .syscallEnter true)
  | .stopped (.event _ code) =>
    asked = [] ∧
    (∀ event : Event, event.code = code → result =
      (.ok (.event event), s.stoppedBy (.event event) (s.inSyscall || event ∈ [.exec, .seccomp]))) ∧
    ((∀ event : Event, event.code ≠ code) → result =
      (.error (.internal "unexpected ptrace-event-stop code"), s.unclassified))

variable {s : Session}

/-! ## What a change means -/

theorem settle_ofErrno (s : Session) (errno : Errno) :
    s.settle (.error (.ofErrno s.pid errno)) =
      if errno = .esrch ∨ errno = .echild then s.foundGone else s.unclassified := by
  by_cases hgone : errno = .esrch ∨ errno = .echild
  · simp [settle, foundGone, hgone]
  · simp [settle, unclassified, hgone]

theorem takesNotice_signal (s : Session) (signal : Signal) (rest : List Reply) :
    s.TakesNotice (.stopped (.signal signal)) (rest.headD (.error .esrch))
      (s.interpretStop (.signal signal) rest).calls
      ((s.interpretStop (.signal signal) rest).result.map Prod.fst,
        s.settle (s.interpretStop (.signal signal) rest).result) := by
  by_cases hgroup : signal ∈ [.stop, .tstp, .ttin, .ttou]
  · have hmay := Signal.mayStopGroup_iff.2 hgroup
    simp only [TakesNotice, if_pos hgroup, interpretStop_of_probed hmay, true_and]
    cases rest.headD (.error .esrch) with
    | ok answer => rfl
    | error errno =>
      by_cases hinvalid : errno = .einval
      · simp only [groupStopOfReply, if_pos hinvalid]
        rfl
      · simp only [groupStopOfReply, if_neg hinvalid, ← settle_ofErrno]
        rfl
  · have hsingle : signal.mayStopGroup = false :=
      Bool.eq_false_iff.2 fun hmay => hgroup (Signal.mayStopGroup_iff.1 hmay)
    simp only [TakesNotice, if_neg hgroup, interpretStop_of_single hsingle, true_and]
    rfl

theorem takesNotice_event (s : Session) (signal : Signal) (code : Int) (rest : List Reply)
    (probe : Reply) :
    s.TakesNotice (.stopped (.event signal code)) probe
      (s.interpretStop (.event signal code) rest).calls
      ((s.interpretStop (.event signal code) rest).result.map Prod.fst,
        s.settle (s.interpretStop (.event signal code) rest).result) := by
  cases hcode : Event.ofCode? code with
  | some event =>
    have hevent := Event.ofCode?_eq_some_iff.1 hcode
    simp only [interpretStop, hcode]
    refine ⟨rfl, fun other hother => ?_, fun hnone => absurd hevent (hnone event)⟩
    obtain rfl : event = other :=
      Option.some.inj (hcode.symm.trans (Event.ofCode?_eq_some_iff.2 hother))
    simp only [← Event.midSyscall_iff, Bool.decide_eq_true]
    rfl
  | none =>
    simp only [interpretStop, hcode]
    refine ⟨rfl, fun event hevent => ?_, fun _ => rfl⟩
    cases hcode.symm.trans (Event.ofCode?_eq_some_iff.2 hevent)

/-- Whatever a change means is found out from the reply that follows. -/
theorem takesNotice_interpret (s : Session) (change : Change) (rest : List Reply) :
    s.TakesNotice change (rest.headD (.error .esrch)) (s.interpret change rest).calls
      ((s.interpret change rest).result.map Prod.fst,
        s.settle (s.interpret change rest).result) := by
  cases change with
  | ended ending => exact ⟨rfl, rfl⟩
  | stopped report =>
    cases report with
    | signal signal => exact takesNotice_signal s signal rest
    | event signal code => exact takesNotice_event s signal code rest _
    | syscall =>
      simp only [TakesNotice, interpret, interpretStop]
      split
      · exact ⟨rfl, rfl⟩
      · exact ⟨rfl, rfl⟩

/-! ## Waiting for a change -/

/-- A running session that is told of a change finds out what it means. -/
theorem wait_of_tells (hs : s.state = .continuing) {idle : List Reply}
    (hidle : ∀ reply ∈ idle, reply.Idle s.pid) {answer : Answer} {change : Change}
    (hreturned : (answer.waited s.pid).number ≠ 0)
    (htells : WaitStatus.Tells answer.status change) (rest : List Reply) :
    let waited := s.wait (idle ++ .ok answer :: rest)
    let classified := s.interpret change rest
    waited.calls = waitCalls s.pid (idle ++ [.ok answer]) ++ classified.calls ∧
      waited.result = (classified.result.map Prod.fst, s.settle classified.result) := by
  have hends : Reply.Ends s.pid (.ok answer) (.ok (answer.waited s.pid, change)) :=
    .changed (by simp [Reply.waitStatus, hreturned, WaitStatus.decode?_of_tells _ htells])
  obtain ⟨hcalls, hresult, hrest⟩ := nextChange_append (fun _ => []) hidle hends rest
  obtain ⟨hmade, hmeant⟩ := awaitChange_of_ok hresult
  rw [hcalls, hrest] at hmade
  rw [hrest] at hmeant
  rw [← wait_of_continuing hs] at hmade hmeant
  exact ⟨hmade, hmeant⟩

/-- A running session classifies every status word that tells of a change. It waits until it is
told of the change, and asks once more only if the change is a stop by a signal that can stop a
group. -/
theorem wait_classifies (hs : s.state = .continuing) {idle : List Reply}
    (hidle : ∀ reply ∈ idle, reply.Idle s.pid) {answer : Answer} {change : Change}
    (hreturned : (answer.waited s.pid).number ≠ 0)
    (htells : WaitStatus.Tells answer.status change) (rest : List Reply) :
    let waited := s.wait (idle ++ .ok answer :: rest)
    ∃ asked, waited.calls = waitCalls s.pid (idle ++ [.ok answer]) ++ asked ∧
      s.TakesNotice change (rest.headD (.error .esrch)) asked waited.result := by
  intro waited
  obtain ⟨hcalls, hresult⟩ := wait_of_tells hs hidle hreturned htells rest
  refine ⟨_, hcalls, ?_⟩
  rw [hresult]
  exact takesNotice_interpret s change rest

/-- An interrupted wait, a tracee that was continued and one with nothing to report are passed over.
Then the tracee stops inside a syscall, and the signal of the stop has no origin. -/
theorem wait_classifies_group_stop :
    let s : Session := ⟨⟨5⟩, .continuing, none, none, true⟩
    let idle : List Reply := [.error .eintr, .ok { status := 0xffff }, .ok { returned := some 0 }]
    let answer : Answer := { status := 0x137f }
    let waited := s.wait (idle ++ .ok answer :: [.error .einval])
    (∀ reply ∈ idle, reply.Idle s.pid) ∧
      WaitStatus.Tells answer.status (.stopped (.signal .stop)) ∧
      waited.calls =
        waitCalls s.pid (idle ++ [.ok answer]) ++ [⟨.signalInfo s.pid, .error .einval⟩] ∧
      waited.result = (.ok (.group .stop), s.stoppedBy (.group .stop) true) := by
  intro s idle answer waited
  have hidle : ∀ reply ∈ idle, reply.Idle s.pid := by
    intro reply hreply
    simp only [idle, List.mem_cons, List.not_mem_nil, or_false] at hreply
    rcases hreply with rfl | rfl | rfl <;> rfl
  have htells : WaitStatus.Tells answer.status (.stopped (.signal .stop)) :=
    .signal (by decide) (by decide) (by decide)
  obtain ⟨asked, hcalls, rfl, hresult⟩ :=
    wait_classifies (s := s) rfl hidle (by decide) htells [.error .einval]
  exact ⟨hidle, htells, hcalls, hresult⟩

end Session

end ProcTrace
