import ProcTrace.CommandLine.Run
import ProcTrace.Kernel.Script

/-!
# The program

Writes the seccomp filters of a process, as the replies of the kernel tell them. The replies are
read from standard input as a script.
-/

namespace ProcTrace.CommandLine

/-- How to use the program. -/
def usageText : String :=
  "usage: --pid <pid> [--limit <limit>] [--raw] < <script of kernel replies>\n"

/-- All that is left of the standard input. -/
def readInput : IO String := do
  let input ← IO.getStdin
  let mut text := ""
  let mut line ← input.getLine
  while !line.isEmpty do
    text := text ++ line
    line ← input.getLine
  return text

/-- Writes what a run gives, and gives its exit code. -/
def finish : Conclusion → IO UInt32
  | .usage => do
    (← IO.getStderr).putStr usageText
    return 1
  | .finished code output complaint => do
    (← IO.getStdout).write ⟨output.toArray⟩
    (← IO.getStderr).putStr complaint
    return code.toUInt32

end ProcTrace.CommandLine

open ProcTrace ProcTrace.CommandLine in
/-- Reads the replies of the kernel and runs the command line. -/
def main (arguments : List String) : IO UInt32 := do
  if (Arguments.ofList? arguments).isNone then
    finish .usage
  else
    match Reply.ofScript? (← readInput) with
    | some replies => finish (run arguments replies).result
    | none =>
      (← IO.getStderr).putStr "the script of kernel replies cannot be read\n"
      return 1
