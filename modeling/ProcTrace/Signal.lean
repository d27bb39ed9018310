/-!
# Signals

The thirty-one standard signals with their numbers and names. A number outside `1 … 31` is no
`Signal`, so `Signal.ofNumber?` is partial. It reads a signal back from the number that
`Signal.number` gives (`ofNumber?_number`), and from no other (`number_of_ofNumber?`).
-/

namespace ProcTrace

/-- A standard signal. -/
inductive Signal
  | hup | int | quit | ill | trap | abrt | bus | fpe | kill | usr1 | segv | usr2 | pipe | alrm
  | term | stkflt | chld | cont | stop | tstp | ttin | ttou | urg | xcpu | xfsz | vtalrm | prof
  | winch | io | pwr | sys
  deriving DecidableEq, Repr

namespace Signal

/-- The number under which the kernel knows the signal. -/
def number : Signal → Nat
  | hup => 1 | int => 2 | quit => 3 | ill => 4 | trap => 5 | abrt => 6 | bus => 7 | fpe => 8
  | kill => 9 | usr1 => 10 | segv => 11 | usr2 => 12 | pipe => 13 | alrm => 14 | term => 15
  | stkflt => 16 | chld => 17 | cont => 18 | stop => 19 | tstp => 20 | ttin => 21 | ttou => 22
  | urg => 23 | xcpu => 24 | xfsz => 25 | vtalrm => 26 | prof => 27 | winch => 28 | io => 29
  | pwr => 30 | sys => 31

/-- The signal of a number, none outside `1 … 31`. -/
def ofNumber? : Nat → Option Signal
  | 1 => hup | 2 => int | 3 => quit | 4 => ill | 5 => trap | 6 => abrt | 7 => bus | 8 => fpe
  | 9 => kill | 10 => usr1 | 11 => segv | 12 => usr2 | 13 => pipe | 14 => alrm | 15 => term
  | 16 => stkflt | 17 => chld | 18 => cont | 19 => stop | 20 => tstp | 21 => ttin | 22 => ttou
  | 23 => urg | 24 => xcpu | 25 => xfsz | 26 => vtalrm | 27 => prof | 28 => winch | 29 => io
  | 30 => pwr | 31 => sys
  | _ => none

@[simp] theorem ofNumber?_number (s : Signal) : ofNumber? s.number = some s := by
  cases s <;> rfl

theorem number_of_ofNumber? {n : Nat} {s : Signal} (h : ofNumber? n = some s) :
    s.number = n := by
  unfold ofNumber? at h
  split at h <;> cases h <;> rfl

/-- The name of the signal. -/
def name : Signal → String
  | hup => "SIGHUP" | int => "SIGINT" | quit => "SIGQUIT" | ill => "SIGILL" | trap => "SIGTRAP"
  | abrt => "SIGABRT" | bus => "SIGBUS" | fpe => "SIGFPE" | kill => "SIGKILL"
  | usr1 => "SIGUSR1" | segv => "SIGSEGV" | usr2 => "SIGUSR2" | pipe => "SIGPIPE"
  | alrm => "SIGALRM" | term => "SIGTERM" | stkflt => "SIGSTKFLT" | chld => "SIGCHLD"
  | cont => "SIGCONT" | stop => "SIGSTOP" | tstp => "SIGTSTP" | ttin => "SIGTTIN"
  | ttou => "SIGTTOU" | urg => "SIGURG" | xcpu => "SIGXCPU" | xfsz => "SIGXFSZ"
  | vtalrm => "SIGVTALRM" | prof => "SIGPROF" | winch => "SIGWINCH" | io => "SIGIO"
  | pwr => "SIGPWR" | sys => "SIGSYS"

instance : ToString Signal := ⟨name⟩

/-- Signals whose stop can be a group-stop. -/
def mayStopGroup : Signal → Bool
  | stop | tstp | ttin | ttou => true
  | _ => false

end Signal

/-- The signal argument of a restart: the number of the signal to deliver, zero for none. -/
def signalArgument : Option Signal → Nat
  | some signal => signal.number
  | none => 0

end ProcTrace
