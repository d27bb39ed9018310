import ProcTrace.Errno
import ProcTrace.Pid
import ProcTrace.Signal
import ProcTrace.TraceOptions

/-!
# Requests to the kernel

The system calls by which a process is traced, with their arguments. `Request.text` writes a
request as a listing of system calls does.
-/

namespace ProcTrace

/-- A request to the kernel. -/
inductive Request
  | traceMe
  | attach (pid : Pid)
  /-- Let the tracee go, delivering a signal if one is given. -/
  | detach (pid : Pid) (signal : Option Signal)
  /-- Let the tracee run, delivering a signal if one is given. -/
  | cont (pid : Pid) (signal : Option Signal)
  /-- Let the tracee run to its next syscall-stop, delivering a signal if one is given. -/
  | syscall (pid : Pid) (signal : Option Signal)
  | setOptions (pid : Pid) (options : TraceOptions)
  | peekData (pid : Pid) (address : UInt64)
  | eventMessage (pid : Pid)
  | signalInfo (pid : Pid)
  /-- Copy the first `length` bytes of the register image. -/
  | registerSet (pid : Pid) (length : Nat)
  /-- Count the instructions of a filter, or copy them into a buffer of some capacity. -/
  | seccompFilter (pid : Pid) (index : Nat) (capacity : Option Nat)
  | waitpid (pid : Pid)
  | kill (pid : Pid) (signal : Signal)
  /-- Open the executable that the process runs, to read it. -/
  | openExecutable (pid : Pid)
  deriving DecidableEq, Repr

namespace Request

/-- The error of a request that the kernel has no reply to any more: there is no child to wait
for, no file to open, and no process to trace. -/
def lastErrno : Request → Errno
  | waitpid _ => .echild
  | openExecutable _ => .enoent
  | _ => .esrch

/-- The request as a listing of system calls writes it. -/
def text : Request → String
  | traceMe => "ptrace(TRACEME, 0)"
  | attach pid => s!"ptrace(ATTACH, {pid})"
  | detach pid signal => s!"ptrace(DETACH, {pid}, " ++ toString (signalArgument signal) ++ ")"
  | cont pid signal => s!"ptrace(CONT, {pid}, " ++ toString (signalArgument signal) ++ ")"
  | syscall pid signal => s!"ptrace(SYSCALL, {pid}, " ++ toString (signalArgument signal) ++ ")"
  | setOptions pid options => s!"ptrace(SETOPTIONS, {pid}, " ++ toString options.mask ++ ")"
  | peekData pid address => s!"ptrace(PEEKDATA, {pid}, {address})"
  | eventMessage pid => s!"ptrace(GETEVENTMSG, {pid})"
  | signalInfo pid => s!"ptrace(GETSIGINFO, {pid})"
  | registerSet pid length => s!"ptrace(GETREGSET, {pid}, 1, {length})"
  | seccompFilter pid index none => s!"ptrace(SECCOMP_GET_FILTER, {pid}, {index}, NULL)"
  | seccompFilter pid index (some _) => s!"ptrace(SECCOMP_GET_FILTER, {pid}, {index}, BUF)"
  | waitpid pid => s!"waitpid({pid}, 0x40000000)"
  | kill pid signal => s!"kill({pid}, " ++ toString signal.number ++ ")"
  | openExecutable pid => s!"open(/proc/{pid}/exe)"

instance : ToString Request := ⟨text⟩

end Request

end ProcTrace
