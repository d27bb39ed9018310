import ProcTrace.Numeral
import ProcTrace.Pid

/-!
# Arguments of the command line

The process to attach to is required, a limit on the number of filters and the choice of raw output
are optional, and each may be given once. A value stands in the argument after its option, unless
that looks like an option, or it is joined to the option. `Arguments.ofList?` gives nothing for any
other list of arguments. To ask for help or for the version is not among the options here, so it
counts as misuse.
-/

namespace ProcTrace

/-! ## Words -/

/-- The options that take a value. -/
inductive ValueOption
  | pid | limit
  deriving DecidableEq, Repr

/-- What an argument is, taken by itself. -/
inductive Word
  /-- An option whose value is the next argument. -/
  | option (name : ValueOption)
  /-- An option with its value. -/
  | assignment (name : ValueOption) (value : List Char)
  | raw
  /-- The end of the options. -/
  | terminator
  | other
  deriving DecidableEq, Repr

namespace Word

/-- The value joined to an option. An equals sign may stand before it. -/
def joined (value : List Char) : List Char :=
  value.dropWhile (· = '=')

/-- An option with the value that is joined to it, if there is one. -/
def withValue (name : ValueOption) : Option (List Char) → Word
  | some value => assignment name (joined value)
  | none => option name

/-- The word with a long name, written after two or more dashes. What is joined to the name starts
at the first equals sign. -/
def ofLong (text : List Char) : Word :=
  let text := text.dropWhile (· = '-')
  let name := text.takeWhile (· ≠ '=')
  let value := if name.length < text.length then some (text.drop name.length) else none
  if name = "pid".toList then withValue .pid value
  else if name = "limit".toList then withValue .limit value
  else if name = "raw".toList then raw
  else other

/-- The word with a name of one letter, written after a dash. -/
def ofShort : List Char → Word
  | 'p' :: value => withValue .pid (if value = [] then none else some value)
  | 'l' :: value => withValue .limit (if value = [] then none else some value)
  | _ => other

/-- What an argument is, taken by itself. -/
def ofText : List Char → Word
  | ['-', '-'] => terminator
  | '-' :: '-' :: text => ofLong text
  | '-' :: text => ofShort text
  | _ => other

end Word

/-! ## Arguments -/

/-- Whether an argument looks like an option, so that it is no value. -/
def looksLikeOption : List Char → Bool
  | '-' :: _ :: _ => true
  | _ => false

/-- The arguments read so far. -/
structure PartialArguments where
  pid : Option Pid := none
  limit : Option Nat := none
  raw : Bool := false
  deriving DecidableEq, Repr

namespace PartialArguments

/-- Gives an option its value, which it must not have yet. -/
def assign? (a : PartialArguments) (value : List Char) :
    ValueOption → Option PartialArguments
  | .pid =>
    if a.pid.isSome then none
    else (signedOfText? 32 value).map fun number => { a with pid := some ⟨number⟩ }
  | .limit =>
    if a.limit.isSome then none
    else (unsignedOfText? 64 value).map fun limit => { a with limit := some limit }

/-- Chooses raw output, which must not be chosen yet. -/
def chooseRaw? (a : PartialArguments) : Option PartialArguments :=
  if a.raw then none else some { a with raw := true }

/-- Reads the arguments that are left. -/
def extend? (a : PartialArguments) : List (List Char) → Option PartialArguments
  | [] => some a
  | [text] =>
    match Word.ofText text with
    | .assignment name value => a.assign? value name
    | .raw => a.chooseRaw?
    | .terminator => some a
    | _ => none
  | text :: next :: rest =>
    match Word.ofText text with
    | .assignment name value => (a.assign? value name).bind (extend? · (next :: rest))
    | .raw => a.chooseRaw?.bind (extend? · (next :: rest))
    | .option name =>
      if looksLikeOption next then none
      else (a.assign? next name).bind (extend? · rest)
    | _ => none

end PartialArguments

/-- What the command line asks for. -/
structure Arguments where
  pid : Pid
  limit : Option Nat
  raw : Bool
  deriving DecidableEq, Repr

/-- The arguments in a list, none if they are not used as they should be. -/
def Arguments.ofList? (arguments : List String) : Option Arguments := do
  let read ← PartialArguments.extend? {} (arguments.map String.toList)
  pure ⟨← read.pid, read.limit, read.raw⟩

end ProcTrace
