import Supervisor.Json.Reader
import Supervisor.Text.Blank
/-!
# Session commands

The lines that a session takes from its user: a word, and for requests a method with parameters in
JSON. Blanks around and between the words do not count.
-/
namespace Supervisor.Session

inductive Command
  | restart
  | clearCaches
  | reload
  | status
  | stop
  | request (method : String) (params : Option Json)
  | quit

inductive Command.Refusal
  | unknown (word : String)
  | noMethod
  | badParams (e : Json.ReadError)

def Command.Refusal.message : Command.Refusal → String
  | .unknown word => "unknown command: " ++ word
  | .noMethod => "usage: request <method> [json params]"
  | .badParams e => "invalid params: " ++ e.message

namespace Command

def help : String :=
  "commands: restart | clear-caches | reload | status | stop | request <method> [json] | quit"

def readRequest (rest : List Char) : Except Refusal Command :=
  let (method, params) := Text.splitAtBlank rest
  if method.isEmpty then .error .noMethod
  else match params with
    | none => .ok (.request (String.ofList method) none)
    | some text =>
      match Json.ofString (String.ofList (Text.trim text)) with
      | .ok j => .ok (.request (String.ofList method) (some j))
      | .error e => .error (.badParams e)

/-- The command in a line; a blank line holds none. -/
def ofLine (line : String) : Except Refusal (Option Command) :=
  let cs := Text.trim line.toList
  if cs.isEmpty then .ok none
  else
    let (word, rest) := Text.splitAtBlank cs
    let rest := Text.trim (rest.getD [])
    let word := String.ofList word
    if word = "restart" then .ok (some .restart)
    else if word = "clear-caches" then .ok (some .clearCaches)
    else if word = "reload" then .ok (some .reload)
    else if word = "status" then .ok (some .status)
    else if word = "stop" then .ok (some .stop)
    else if word = "quit" ∨ word = "exit" then .ok (some .quit)
    else if word = "request" then (readRequest rest).map some
    else .error (.unknown word)

end Command

end Supervisor.Session
