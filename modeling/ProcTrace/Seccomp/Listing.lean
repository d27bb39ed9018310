import ProcTrace.Numeral
import ProcTrace.Seccomp.Filter

/-!
# Listings of seccomp filters

A listing has a heading for every filter and a line for every instruction: the place of the
instruction in decimal, and its fields in hexadecimal. Columns have a least width only, so that
every value is written in full.
-/

namespace ProcTrace

/-- The line of the instruction at place `place` of a filter. -/
def Instruction.line (place : Nat) (i : Instruction) : String :=
  " " ++ decimal 4 place ++ ": 0x" ++ hexadecimal 2 i.code.toNat ++ " 0x" ++
    hexadecimal 2 i.jumpTrue.toNat ++ " 0x" ++ hexadecimal 2 i.jumpFalse.toNat ++ " 0x" ++
    hexadecimal 8 i.operand.toNat ++ "\n"

namespace SeccompFilter

/-- The heading of the filter. -/
def heading (f : SeccompFilter) : String :=
  "filter " ++ decimal 1 f.index ++ " (" ++ decimal 1 f.length ++ " instructions)\n"

/-- The listing of the filter. -/
def listing (f : SeccompFilter) : String :=
  f.heading ++ String.join (f.instructions.mapIdx Instruction.line)

/-- The listing of filters, one after the other. -/
def listAll (filters : List SeccompFilter) : String :=
  String.join (filters.map listing)

end SeccompFilter

end ProcTrace
