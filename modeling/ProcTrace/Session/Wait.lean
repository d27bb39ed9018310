import ProcTrace.Session.Basic
import ProcTrace.Tracee.Wait

/-!
# What a session waits for

While a tracee is attaching, a session waits for its attach-stop. While it is running, a session
waits for the next change and says what it means (`Session.interpret`): a signal that is about to be
delivered or one that stops all threads, the way into a syscall or out of it, an event, or the end.

The kernel does not say whether a syscall-stop is an enter or an exit. The two take turns, and the
events that a tracee reports in the middle of a syscall are followed by an exit.

A stop that cannot be classified is still a stop, so the session can go on (`Session.settle`).
-/

namespace ProcTrace

/-- Whether a stop by a signal is a group-stop, from the reply to the request for the signal's
origin: a group-stop has none. -/
def groupStopOfReply (pid : Pid) : Reply → Except Error Bool
  | .ok _ => .ok false
  | .error errno => if errno = .einval then .ok true else .error (.ofErrno pid errno)

/-- Whether the stop of `pid` by a signal is a group-stop. -/
def stopsGroup (pid : Pid) (signal : Signal) : Attempt Bool := fun replies =>
  if signal.mayStopGroup then
    let asked := Tracer.ask (.signalInfo pid) replies
    asked.withResult (groupStopOfReply pid asked.result)
  else ⟨.ok false, [], [], replies⟩

namespace Session

/-- What a reported stop means, and whether the tracee is inside a syscall after it. -/
def interpretStop (s : Session) : StopReport → Attempt (Stop × Bool)
  | .signal signal => do
    if ← stopsGroup s.pid signal then
      pure (.group signal, s.inSyscall)
    else
      pure (.signalDelivery signal, s.inSyscall)
  | .event _ code =>
    match Event.ofCode? code with
    | some event => pure (.event event, s.inSyscall || event.midSyscall)
    | none => throw (.internal "unexpected ptrace-event-stop code")
  | .syscall =>
    if s.inSyscall then pure (.syscallExit, false) else pure (.syscallEnter, true)

/-- What a change means, and whether the tracee is inside a syscall after it. -/
def interpret (s : Session) : Change → Attempt (Stop × Bool)
  | .stopped report => s.interpretStop report
  | .ended ending => pure (.ended ending, s.inSyscall)

/-- The session once a change has been classified, or could not be. -/
def settle (s : Session) : Except Error (Stop × Bool) → Session
  | .ok (stop, inSyscall) =>
    { s with
      state := if stop.isTerminal then .exited else .stopped
      lastStop := some stop
      inSyscall }
  | .error error =>
    { s with
      state := if error.traceeGone then .exited else .stopped
      lastStop := none }

/-- Records a change that has been classified, or could not be. -/
def record (s : Session) (classified : Except Error (Stop × Bool)) :
    Tracer (Except Error Stop × Session) :=
  let settled := s.settle classified
  match classified with
  | .ok (stop, _) => do
    Tracer.note (.stateChanged s.pid stop settled.state)
    pure (.ok stop, settled)
  | .error error => pure (.error error, settled)

/-- The session after a wait that failed. A tracer without children has lost its tracee. -/
def afterFailedWait (s : Session) (errno : Errno) : Session :=
  if errno = .echild then { s with state := .exited } else s

/-- Waits for the next change of the running tracee. -/
def awaitChange (s : Session) : Tracer (Except Error Stop × Session) := do
  match ← nextChange s.pid fun _ => [] with
  | .ok (_, change) => s.record (← (s.interpret change).run)
  | .error errno => pure (.error (.ofErrno s.pid errno), s.afterFailedWait errno)

/-- Waits for the attach-stop. -/
def awaitAttachStop (s : Session) : Tracer (Except Error Stop × Session) := do
  match ← (reachAttachStop s.pid).run with
  | .ok () =>
    Tracer.note (.attachStopReached s.pid)
    pure (.ok .attach, { s with state := .stopped, lastStop := some .attach })
  | .error error =>
    pure (.error error, if error.traceeGone then { s with state := .exited } else s)

/-- Waits until the tracee changes its state, and says what the change means. -/
def wait (s : Session) : Tracer (Except Error Stop × Session) :=
  match s.state with
  | .attaching => s.awaitAttachStop
  | .continuing => s.awaitChange
  | _ => pure (.error (s.refusal "wait on"), s)

end Session

end ProcTrace
