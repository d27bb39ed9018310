import ProcTrace.Kernel.Attempt

/-!
# Reading seccomp filters

A filter is read by two requests: one counts its instructions, the other copies them into a buffer
of that many. `SeccompFilter.read` gives the whole filter or fails. `SeccompFilter.readAll` goes
through a process's chain of filters from the first one on, until there are no more or a limit is
reached.

There is room for a buffer of any number of instructions here. From 2 ^ 60 instructions on their
bytes are more than can be addressed, so a program that allocates the buffer ends there. No kernel
reports a filter so long.
-/

namespace ProcTrace.SeccompFilter

/-- The error of a request for the filter at `index`. -/
def readError (pid : Pid) (index : Nat) (errno : Errno) : Error :=
  if errno = .enoent ∨ errno = .einval then .noSuchFilter pid index errno
  else .ofErrno pid errno

/-- Reads the filter at `index` of the stopped tracee `pid`. -/
def read (pid : Pid) (index : Nat) : Attempt SeccompFilter := do
  let counted ← Attempt.askOr (readError pid index) (.seccompFilter pid index none)
  let count := counted.instructionCount
  Attempt.note (.filterLength pid index count)
  let copied ← Attempt.askOr (readError pid index) (.seccompFilter pid index (some count))
  if copied.instructionCount = count then
    Attempt.note (.filterRead pid index count)
    pure ⟨index, copied.instructionBuffer count⟩
  else
    throw (.transferMismatch pid "seccomp filter instructions" count copied.instructionCount)

/-- A filter that could be read has taken a reply. -/
theorem length_rest_read_lt {pid : Pid} {index : Nat} {replies : List Reply}
    {filter : SeccompFilter} (h : (read pid index replies).result = .ok filter) :
    (read pid index replies).rest.length < replies.length := by
  refine Attempt.length_rest_bind_lt (fun counted => ?_) h fun _ => Attempt.length_rest_askOr_lt
  refine (Attempt.orderly_note _).bind fun _ => (Attempt.orderly_askOr _ _).bind fun copied => ?_
  split
  · exact (Attempt.orderly_note _).bind fun _ => Attempt.orderly_pure _
  · exact Attempt.orderly_throw _

/-- What reading a filter means after the filters `earlier`: the chain is longer, or it ends here,
or it cannot be read. -/
def extend (earlier : List SeccompFilter) :
    Except Error SeccompFilter → Except Error (List SeccompFilter ⊕ List SeccompFilter)
  | .ok filter => .ok (.inr (earlier ++ [filter]))
  | .error (.noSuchFilter _ _ _) => .ok (.inl earlier)
  | .error error => .error error

/-- Reads the filter that follows the filters `earlier`, unless they are as many as wanted. -/
def readNext (pid : Pid) (limit : Option Nat) (earlier : List SeccompFilter) :
    Attempt (List SeccompFilter ⊕ List SeccompFilter) := fun replies =>
  if limit = some earlier.length then ⟨.ok (.inl earlier), [], [], replies⟩
  else
    let taken := read pid earlier.length replies
    taken.withResult (extend earlier taken.result)

theorem length_rest_readNext_lt (pid : Pid) (limit : Option Nat) (earlier : List SeccompFilter)
    (replies : List Reply) (next : List SeccompFilter)
    (h : (readNext pid limit earlier replies).result = .ok (.inr next)) :
    (readNext pid limit earlier replies).rest.length < replies.length := by
  unfold readNext at h ⊢
  split at h
  · simp at h
  next hl =>
    rw [if_neg hl]
    simp only [Exchange.result_withResult, Exchange.rest_withResult] at h ⊢
    cases hr : (read pid earlier.length replies).result with
    | ok filter => exact length_rest_read_lt hr
    | error error =>
      rw [hr] at h
      cases error <;> simp [extend] at h

/-- Reads the filters of the stopped tracee `pid`, at most `limit` of them, in the order in which
they were installed. -/
def readAll (pid : Pid) (limit : Option Nat) : Attempt (List SeccompFilter) :=
  Attempt.loop (readNext pid limit) (length_rest_readNext_lt pid limit) []

end ProcTrace.SeccompFilter
