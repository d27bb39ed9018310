import ProcTrace.Session.Wait
import ProcTrace.Tracee.Requests

/-!
# How a session begins and ends

A session begins by attaching to a process, or by adopting a child that asked to be traced. It ends
by detaching, or by being dropped. A dropped session lets its tracee go if it can: a stopped tracee
at once, an attaching one after its attach-stop. Only a running tracee stays traced, which is logged
as a warning.

A session that gives up on its first wait, or that refuses to detach, is dropped on the way.
-/

namespace ProcTrace.Session

/-! ## Ending -/

/-- Detaches a tracee on behalf of a dropped session. The failures that `silent` holds for are not
worth a warning. -/
def detachDropped (s : Session) (silent : Error → Bool) (x : Attempt Unit) : Tracer Unit := do
  match ← x.run with
  | .ok () => pure ()
  | .error error =>
    if silent error then pure () else Tracer.note (.detachFailed s.pid error)

/-- Ends the session without being asked to detach. -/
def drop (s : Session) : Tracer Unit :=
  match s.state with
  | .stopped => s.detachDropped (fun _ => false) (Tracee.detach s.pid)
  | .attaching =>
    s.detachDropped Error.traceeGone do
      reachAttachStop s.pid
      Tracee.detach s.pid
  | .continuing => Tracer.note (.droppedRunning s.pid)
  | .detached | .exited => pure ()

/-- Ends the session by letting the stopped tracee go. It is not tried again if it fails. In any
other state the session is dropped. -/
def detach (s : Session) : Attempt Unit :=
  if s.state = .stopped then Tracee.detach s.pid
  else ExceptT.mk do
    s.drop
    pure (.error (s.refusal "detach from"))

/-! ## Beginning -/

/-- Takes over a child that asked to be traced. -/
def adopt (pid : Pid) : Attempt Session := do
  Attempt.note (.sessionOpened pid .attaching)
  pure (attaching pid)

/-- Attaches to a process. -/
def attach (pid : Pid) : Attempt Session := do
  Tracee.attach pid
  adopt pid

/-- Waits once. The session is dropped if the wait fails. -/
def waitOrDrop (s : Session) : Attempt Session := ExceptT.mk do
  match ← s.wait with
  | (.ok _, waited) => pure (.ok waited)
  | (.error error, waited) =>
    waited.drop
    pure (.error error)

/-- Takes over a child that asked to be traced, and waits until it is stopped. -/
def adoptStopped (pid : Pid) : Attempt Session := do
  waitOrDrop (← adopt pid)

/-- Attaches to a process and waits until it is stopped. -/
def attachStopped (pid : Pid) : Attempt Session := do
  waitOrDrop (← attach pid)

end ProcTrace.Session
