import ProcTrace.Kernel.Attempt

/-!
# Waiting for a tracee

A wait is repeated until the tracee has changed its state: an interrupted wait, a tracee that was
continued and one that has nothing to report are passed over (`nextChange`). A stateless wait ends
at a stop (`nextStop`), and fails if the tracee ends.

A tracee that was just attached reports other stops before the attach-stop. `reachAttachStop`
restarts it after each of them and keeps the signals that were about to be delivered. Once the
attach-stop is seen they are sent again, in order.
-/

namespace ProcTrace

/-- The change that a status reports, with the process it is about, if it reports one. -/
def WaitStatus.change? : WaitStatus → Option (Pid × Change)
  | changed pid change => some (pid, change)
  | _ => none

/-- What the reply to a wait for `pid` means: a change or a failure, or else what to log before
the next wait. -/
def judgeWait (pid : Pid) (passedOver : WaitStatus → List Record) (reply : Reply) :
    Except Errno (Pid × Change) ⊕ List Record :=
  match reply.waitStatus pid with
  | .ok status =>
    match status.change? with
    | some change => .inl (.ok change)
    | none => .inr (passedOver status)
  | .error errno => if errno = .eintr then .inr [] else .inl (.error errno)

/-- A wait that finds no child is not repeated. -/
theorem judgeWait_lastErrno (pid : Pid) (passedOver : WaitStatus → List Record) :
    judgeWait pid passedOver (.error (Request.waitpid pid).lastErrno) =
      .inl (.error (Request.waitpid pid).lastErrno) := rfl

/-- Waits until `pid` has changed its state. -/
def nextChange (pid : Pid) (passedOver : WaitStatus → List Record) :
    Tracer (Except Errno (Pid × Change)) :=
  Tracer.askUntil (.waitpid pid) (judgeWait pid passedOver) (judgeWait_lastErrno pid _)

/-- What a change means for a wait that looks for a stop of `pid`. -/
def stopOfChange (pid : Pid) : Except Errno (Pid × Change) → Attempt (Pid × StopReport)
  | .ok (reporter, .stopped report) => pure (reporter, report)
  | .ok (reporter, .ended ending) => do
    Attempt.note (.endedBeforeStopping (.changed reporter (.ended ending)))
    throw (.noSuchProcess pid .esrch)
  | .error errno => throw (.ofErrno pid errno)

/-- Waits until `pid` stops, and gives the process that the report is about and the report. -/
def nextStop (pid : Pid) : Attempt (Pid × StopReport) := fun replies =>
  let change := nextChange pid (fun status => [.ignoredStatus status]) replies
  change.followedBy (stopOfChange pid change.result change.rest)

theorem orderly_stopOfChange (pid : Pid) (change : Except Errno (Pid × Change)) :
    Attempt.Orderly (stopOfChange pid change) := by
  match change with
  | .ok (_, .stopped _) => exact Attempt.orderly_pure _
  | .ok (_, .ended _) => exact (Attempt.orderly_note _).bind fun _ => Attempt.orderly_throw _
  | .error _ => exact Attempt.orderly_throw _

/-- A reply was left if a stop was reported. -/
theorem length_rest_nextStop_lt {pid : Pid} {replies : List Reply} {stop : Pid × StopReport}
    (h : (nextStop pid replies).result = .ok stop) :
    (nextStop pid replies).rest.length < replies.length := by
  cases hc : (nextChange pid (fun status => [.ignoredStatus status]) replies).result with
  | ok change =>
    exact Nat.lt_of_le_of_lt (orderly_stopOfChange _ _ _).length_le
      (Tracer.length_rest_askUntil_lt hc)
  | error errno => simp [nextStop, hc, stopOfChange, Attempt.throw_apply] at h

/-! ## The attach-stop -/

/-- The signal of a stop that has to be sent again. A trap is what an attach itself can cause, and
would kill a tracee that does not expect it. -/
def StopReport.deferred : StopReport → List Signal
  | .signal .trap => []
  | .signal caught => [caught]
  | _ => []

/-- What is logged about a stop before the attach-stop. -/
def StopReport.earlyNote (pid reporter : Pid) : StopReport → Record
  | .signal caught => .signalBeforeAttachStop pid caught
  | report => .stopBeforeAttachStop pid (.changed reporter (.stopped report))

/-- Waits for the next stop of `pid`, which is the attach-stop or else is restarted. -/
def passStop (pid : Pid) (deferred : List Signal) : Attempt (List Signal ⊕ List Signal) := do
  let (reporter, report) ← nextStop pid
  if report = .signal .stop then
    pure (.inl deferred)
  else
    Attempt.note (report.earlyNote pid reporter)
    Attempt.command pid (.cont pid none)
    pure (.inr (deferred ++ report.deferred))

/-- A stop that is not the attach-stop has taken a reply. -/
theorem length_rest_passStop_lt (pid : Pid) (deferred : List Signal) (replies : List Reply)
    (next : List Signal) (h : (passStop pid deferred replies).result = .ok (.inr next)) :
    (passStop pid deferred replies).rest.length < replies.length := by
  refine Attempt.length_rest_bind_lt (fun stop => ?_) h fun _ => length_rest_nextStop_lt
  dsimp only
  split
  · exact Attempt.orderly_pure _
  · exact (Attempt.orderly_note _).bind fun _ =>
      (Attempt.orderly_command _ _).bind fun _ => Attempt.orderly_pure _

/-- Restarts `pid` until it reports the attach-stop, and gives the signals that came before. -/
def passStops (pid : Pid) : Attempt (List Signal) :=
  Attempt.loop (passStop pid) (length_rest_passStop_lt pid) []

/-- Waits until `pid`, attached or taken over, reports its attach-stop. -/
def reachAttachStop (pid : Pid) : Attempt Unit := do
  let deferred ← passStops pid
  deferred.forM fun signal => Attempt.command pid (.kill pid signal)

end ProcTrace
