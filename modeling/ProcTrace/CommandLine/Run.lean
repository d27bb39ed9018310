import ProcTrace.CommandLine.Arguments
import ProcTrace.InstalledFilters
import ProcTrace.Seccomp.Listing

/-!
# Running the command line

The filters of a process are written as a listing or as raw bytes. Nothing is written to standard
output unless all of them could be read.
-/

namespace ProcTrace.CommandLine

/-- How a run ends. -/
inductive Conclusion
  /-- The arguments were not used as they should be. -/
  | usage
  /-- An exit code, with what is written to standard output and to standard error. -/
  | finished (code : Nat) (output : List UInt8) (complaint : String)
  deriving DecidableEq, Repr

/-- What is written for the filters of a process. -/
def output (raw : Bool) (filters : List SeccompFilter) : List UInt8 :=
  if raw then filters.flatMap SeccompFilter.toBytes
  else (SeccompFilter.listAll filters).toUTF8.toList

/-- What is written for an error, with what lies behind it. -/
def complaint (error : Error) : String :=
  "Error: " ++ error.message ++ "\n" ++
    match error.cause? with
    | some source => "\nCaused by:\n    " ++ source ++ "\n"
    | none => ""

/-- The end of a run that reads filters. -/
def conclude (raw : Bool) : Except Error (List SeccompFilter) → Conclusion
  | .ok filters => .finished 0 (output raw filters) ""
  | .error error => .finished 1 [] (complaint error)

/-- Runs the command line with what it is asked for. -/
def runWith (given : Arguments) : Tracer Conclusion := do
  pure (conclude given.raw (← (installedFilters given.pid given.limit).run))

/-- Runs the command line. -/
def run (arguments : List String) : Tracer Conclusion :=
  match Arguments.ofList? arguments with
  | some given => runWith given
  | none => pure .usage

end ProcTrace.CommandLine
