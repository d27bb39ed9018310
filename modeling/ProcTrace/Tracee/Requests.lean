import ProcTrace.Tracee.Wait

/-!
# Requests about a tracee

The requests that a tracer makes of its tracee, and those by which a process offers itself to be
traced. They keep no account of the tracee's state: a request that comes at the wrong time fails
as the kernel says.
-/

namespace ProcTrace

/-! ## Becoming traced -/

/-- Asks that this process be traced by its parent. -/
def traceMe : Attempt Unit :=
  Attempt.commandOr .os .traceMe

/-- Asks that this process, whose number is `self`, be traced by its parent, and stops it. -/
def traceMeAndStop (self : Pid) : Attempt Unit := do
  traceMe
  Attempt.commandOr .os (.kill self .stop)

/-! ## Tracing -/

namespace Tracee

/-- Attaches to the process. It is stopped only once it reports its attach-stop. -/
def attach (pid : Pid) : Attempt Unit := do
  Attempt.note (.attaching pid)
  Attempt.command pid (.attach pid)

/-- Attaches to the process and waits until it reports its attach-stop. -/
def attachStopped (pid : Pid) : Attempt Unit := do
  attach pid
  reachAttachStop pid

/-- Lets the stopped tracee go. -/
def detach (pid : Pid) : Attempt Unit := do
  Attempt.note (.detaching pid)
  Attempt.command pid (.detach pid none)

/-- Sets what the stopped tracee reports. -/
def setOptions (pid : Pid) (options : TraceOptions) : Attempt Unit := do
  Attempt.note (.settingOptions pid options)
  Attempt.command pid (.setOptions pid options)

/-- Lets the stopped tracee run to its next syscall-stop, delivering a signal if one is given. -/
def resume (pid : Pid) (signal : Option Signal) : Attempt Unit := do
  Attempt.note (.restarting pid signal)
  Attempt.command pid (.syscall pid signal)

/-- The message that belongs to the last event of the stopped tracee. -/
def eventMessage (pid : Pid) : Attempt UInt64 := do
  let answer ← Attempt.ask pid (.eventMessage pid)
  pure answer.data

/-- The word at some address, from the reply to the request for it. The word is what the system
call returns, so the word of ones looks like a failure, but leaves no error number behind. -/
def wordOfReply (pid : Pid) : Reply → Except Error UInt64
  | .ok answer => .ok answer.data
  | .error errno =>
    if errno = .unknown then .ok 0xffffffffffffffff else .error (.ofErrno pid errno)

/-- The word at an address of the stopped tracee's memory. -/
def peek (pid : Pid) (address : UInt64) : Attempt UInt64 := fun replies =>
  let asked := Tracer.ask (.peekData pid address) replies
  asked.withResult (wordOfReply pid asked.result)

end Tracee

end ProcTrace
