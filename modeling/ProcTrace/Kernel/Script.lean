import ProcTrace.Kernel.Reply
import ProcTrace.Numeral

/-!
# Scripts of replies

A script is a text with a line for each reply of the kernel. A line is a list of words
`name=value`: `errno` is a failure, and otherwise the words set parts of an answer. An empty line is
an answer with nothing in it.

* `errno=3` : the request fails;
* `returned=2` : the value returned;
* `status=4991` : the status word of a wait;
* `instruction=32:0:0:4` : one more instruction.
-/

namespace ProcTrace

/-- The parts of a text between separators. -/
def splitAtAll (separator : Char) : List Char → List (List Char)
  | [] => [[]]
  | c :: rest =>
    let parts := splitAtAll separator rest
    if c = separator then [] :: parts else (c :: parts.headD []) :: parts.tail

/-- An instruction, from its four fields. -/
def Instruction.ofText? (text : List Char) : Option Instruction := do
  match splitAtAll ':' text with
  | [code, jumpTrue, jumpFalse, operand] =>
    pure ⟨.ofNat (← unsignedOfText? 16 code), .ofNat (← unsignedOfText? 8 jumpTrue),
      .ofNat (← unsignedOfText? 8 jumpFalse), .ofNat (← unsignedOfText? 32 operand)⟩
  | _ => none

/-- The reply with one more word of its line taken into account. -/
def Reply.withWord? (reply : Reply) (word : List Char) : Option Reply := do
  match splitAtAll '=' word with
  | [name, value] =>
    match reply, String.ofList name with
    | .error _, _ => none
    | .ok _, "errno" => pure (.error (.ofNumber (← signedOfText? 32 value)))
    | .ok answer, "returned" =>
      pure (.ok { answer with returned := some (.ofInt (← signedOfText? 64 value)) })
    | .ok answer, "status" => pure (.ok { answer with status := .ofInt (← signedOfText? 32 value) })
    | .ok answer, "instruction" =>
      pure (.ok { answer with
        instructions := answer.instructions ++ [← Instruction.ofText? value] })
    | .ok _, _ => none
  | _ => none

/-- The reply of a line. -/
def Reply.ofLine? (line : List Char) : Option Reply :=
  ((splitAtAll ' ' line).filter (· ≠ [])).foldlM Reply.withWord? (.ok {})

/-- The replies of a script. -/
def Reply.ofScript? (text : String) : Option (List Reply) :=
  match (splitAtAll '\n' text.toList).reverse with
  | [] :: lines => lines.reverse.mapM Reply.ofLine?
  | lines => lines.reverse.mapM Reply.ofLine?

end ProcTrace
