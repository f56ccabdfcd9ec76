import Supervisor.Files.Path
import Supervisor.Json.Basic
/-!
# Behaviours

What programs do that are known beforehand: a tool prints something and ends, a language server does
something for each message that it gets.
-/
namespace Supervisor

/-- What a tool does whose arguments, with blanks between them, begin like `lead`. -/
structure ToolBehaviour where
  lead : String := ""
  /-- Milliseconds. -/
  delay : Nat := 0
  stdout : List UInt8 := []
  stderr : List UInt8 := []
  /-- No exit code if it kills itself. -/
  code : Option Int := some 0

namespace ToolBehaviour

def applies (b : ToolBehaviour) (args : List String) : Bool :=
  b.lead.toList.isPrefixOf (String.intercalate " " args).toList

/-- The first behaviour that applies; a tool for which there is none does nothing. -/
def choose (bs : List ToolBehaviour) (args : List String) : ToolBehaviour :=
  (bs.find? (·.applies args)).getD {}

end ToolBehaviour

/-- One thing that a server does. -/
inductive Action
  /-- Answers the present message, or the last one of a method. -/
  | reply (target : Option String) (members : List (String × Json))
  | send (m : Json)
  | print (bytes : List UInt8)
  | sleep (milliseconds : Nat)
  | write (file : Path) (text : String)
  /-- Writes where nobody reads. -/
  | complain
  | leave

/-- What a server does for a message, by the method of the message. -/
abbrev Behaviour := List (String × List Action)

namespace Behaviour

/-- Replies have no method. -/
def methodOf (m : Json) : String := ((m.member? "method").bind Json.text?).getD ""

def standard (method : String) (m : Json) : List Action :=
  let answer (j : Json) : List Action := [.reply none [("result", j)]]
  match method with
  | "initialize" => answer (.object [("capabilities", .object [])])
  | "shutdown" => answer .null
  | "exit" => [.leave]
  | "" => []
  | _ =>
    if (m.member? "id").isSome then
      answer (.object [("method", .string method), ("params", (m.member? "params").getD .null)])
    else []

def actions (b : Behaviour) (m : Json) : List Action :=
  let method := methodOf m
  (b.lookup method).getD (standard method m)

end Behaviour

end Supervisor
