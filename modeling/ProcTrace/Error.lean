import ProcTrace.Errno
import ProcTrace.Numeral
import ProcTrace.Stop

/-!
# Errors

Why an operation failed, with the message for each cause. `Error.ofErrno` sorts the errors of the
kernel by what they say about the tracee: `traceeGone_ofErrno` names the two that say that it is
gone, and `errno?_ofErrno` says that the error number is kept.
-/

namespace ProcTrace

/-- Why a file could not be read. -/
inductive FileFailure
  | errno (errno : Errno)
  | other (reason : String)
  deriving DecidableEq, Repr

/-- Why an operation failed. -/
inductive Error
  | notPermitted (pid : Pid) (errno : Errno)
  | noSuchProcess (pid : Pid) (errno : Errno)
  | noSuchFilter (pid : Pid) (index : Nat) (errno : Errno)
  /-- The operation is not allowed in this state. -/
  | misuse (pid : Pid) (state : State) (operation : String)
  | invalidArgument (reason : String)
  /-- The executable is for a machine with these two bytes. -/
  | unsupportedMachine (pid : Pid) (first second : UInt8)
  /-- The kernel handed over another amount than it should have. -/
  | transferMismatch (pid : Pid) (what : String) (expected actual : Nat)
  | file (failure : FileFailure)
  | os (errno : Errno)
  | internal (reason : String)
  deriving DecidableEq, Repr

namespace Error

/-- The error that an error number means for a request about `pid`. -/
def ofErrno (pid : Pid) (errno : Errno) : Error :=
  if errno = .eperm ∨ errno = .eacces then notPermitted pid errno
  else if errno = .esrch ∨ errno = .echild then noSuchProcess pid errno
  else os errno

/-- The tracee is gone, or is no longer ours to handle. -/
def traceeGone : Error → Bool
  | noSuchProcess _ _ => true
  | _ => false

/-- The error number, if the error came from the kernel. -/
def errno? : Error → Option Errno
  | notPermitted _ errno | noSuchProcess _ errno | noSuchFilter _ _ errno | os errno => some errno
  | file (.errno errno) => some errno
  | _ => none

/-- The operation was refused because of the state. -/
def isMisuse : Error → Bool
  | misuse .. => true
  | _ => false

/-- The message of the error. -/
def message : Error → String
  | notPermitted pid _ => s!"Not permitted to trace process = {pid}"
  | noSuchProcess pid _ => s!"No such process = {pid}"
  | noSuchFilter pid index _ => s!"No seccomp filter at index = {index} for process = {pid}"
  | misuse pid state operation => s!"Cannot {operation} process = {pid} in state {state}"
  | invalidArgument reason => s!"Invalid argument: {reason}"
  | unsupportedMachine pid first second =>
    "Unsupported ELF machine = " ++ hexOfBytes [first, second] ++ s!" for process = {pid}"
  | transferMismatch pid what expected actual =>
    s!"Kernel transferred {actual} {what} for process = {pid}, expected {expected}"
  | file _ => "Input/output error"
  | os _ => "OS error"
  | internal reason => s!"Internal error: {reason}"

instance : ToString Error := ⟨message⟩

/-- What lies behind the error, for those that have a text of their own. -/
def cause? : Error → Option String
  | notPermitted _ errno | noSuchProcess _ errno | noSuchFilter _ _ errno | os errno =>
    some errno.text
  | file (.other reason) => some reason
  | _ => none

@[simp] theorem errno?_ofErrno (pid : Pid) (errno : Errno) :
    (ofErrno pid errno).errno? = some errno := by
  unfold ofErrno
  split
  · rfl
  · split <;> rfl

/-- Two error numbers say that the tracee is gone. -/
@[simp] theorem traceeGone_ofErrno (pid : Pid) (errno : Errno) :
    (ofErrno pid errno).traceeGone = true ↔ errno = .esrch ∨ errno = .echild := by
  unfold ofErrno
  split
  next h =>
    constructor
    · intro hd
      simp [traceeGone] at hd
    · rintro (rfl | rfl) <;> simp [Errno.esrch, Errno.echild, Errno.eperm, Errno.eacces] at h
  next => split <;> simp_all [traceeGone]

@[simp] theorem isMisuse_ofErrno (pid : Pid) (errno : Errno) :
    (ofErrno pid errno).isMisuse = false := by
  unfold ofErrno
  split
  · rfl
  · split <;> rfl

end Error

end ProcTrace
