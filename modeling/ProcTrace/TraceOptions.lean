/-!
# Trace options

What a tracer may ask the kernel to report about its tracee. The kernel takes the options as a bit
mask. `TraceOptions.ofMask?` refuses a mask with a bit that no option stands for, and
`ofMask?_mask` says that no option is lost on the way.
-/

namespace ProcTrace

/-- A set of trace options. -/
structure TraceOptions where
  /-- Syscall-stops are told apart from signals. -/
  sysGood : Bool := false
  fork : Bool := false
  vfork : Bool := false
  clone : Bool := false
  exec : Bool := false
  vforkDone : Bool := false
  exit : Bool := false
  seccomp : Bool := false
  /-- The tracee is killed when its tracer exits. -/
  exitKill : Bool := false
  deriving DecidableEq, Repr

namespace TraceOptions

/-- Syscall-stops are told apart, and every child is traced as well. -/
def default : TraceOptions where
  sysGood := true
  fork := true
  vfork := true
  clone := true

/-- Every option with its bit, its name, and whether it is chosen. -/
def flags (o : TraceOptions) : List (Nat × String × Bool) :=
  [(0x1, "PTRACE_O_TRACESYSGOOD", o.sysGood), (0x2, "PTRACE_O_TRACEFORK", o.fork),
    (0x4, "PTRACE_O_TRACEVFORK", o.vfork), (0x8, "PTRACE_O_TRACECLONE", o.clone),
    (0x10, "PTRACE_O_TRACEEXEC", o.exec), (0x20, "PTRACE_O_TRACEVFORKDONE", o.vforkDone),
    (0x40, "PTRACE_O_TRACEEXIT", o.exit), (0x80, "PTRACE_O_TRACESECCOMP", o.seccomp),
    (0x100000, "PTRACE_O_EXITKILL", o.exitKill)]

/-- The chosen options. -/
def chosen (o : TraceOptions) : List (Nat × String × Bool) :=
  o.flags.filter fun flag => flag.2.2

/-- The bit mask of the options. -/
def mask (o : TraceOptions) : Nat :=
  o.chosen.foldr (fun flag mask => flag.1 + mask) 0

/-- The options of a mask, none if one of its bits stands for no option. -/
def ofMask? (mask : Nat) : Option TraceOptions :=
  let o : TraceOptions :=
    ⟨mask.testBit 0, mask.testBit 1, mask.testBit 2, mask.testBit 3, mask.testBit 4,
      mask.testBit 5, mask.testBit 6, mask.testBit 7, mask.testBit 20⟩
  if o.mask = mask then some o else none

/-- The names of the chosen options. -/
def text (o : TraceOptions) : String :=
  match o.chosen with
  | [] => "(empty)"
  | flags => " | ".intercalate (flags.map fun flag => flag.2.1)

instance : ToString TraceOptions := ⟨text⟩

/-- The mask of some options gives them back. -/
@[simp] theorem ofMask?_mask : ∀ o : TraceOptions, ofMask? o.mask = some o := by
  have every : ∀ a b c d e f g h i : Bool,
      ofMask? (mk a b c d e f g h i).mask = some (mk a b c d e f g h i) := by
    decide +kernel
  exact fun o => every o.1 o.2 o.3 o.4 o.5 o.6 o.7 o.8 o.9

end TraceOptions

end ProcTrace
