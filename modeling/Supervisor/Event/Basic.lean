import Supervisor.Event.Kind
import Supervisor.Fault
import Supervisor.Json.Shape
import Supervisor.Time.Timestamp
/-!
# Events

A `Notice` tells what happened. An `Event` is a notice with an identity and the time at which it was
made; in this form events are stored and exchanged.
-/
namespace Supervisor

structure Notice where
  kind : EventKind
  message : String
  severity : Severity := .info
  server : Option String := none
  code : Option String := none
  elapsedMillis : Option Nat := none
deriving DecidableEq, Repr, Inhabited

namespace Notice

def error (kind : EventKind) (message code : String) : Notice :=
  { kind, message, severity := .error, code := some code }

/-- A notice of a fault. -/
def ofFault (kind : EventKind) (message : String) (f : Fault) : Notice := error kind message f.code

def isError (n : Notice) : Bool := n.severity == .error

/-- One line for people. -/
def display (n : Notice) : String :=
  "[" ++ n.kind.name ++ "] " ++ n.message
    ++ (match n.code with
      | some code => " (" ++ code ++ ")"
      | none => "")
    ++ (match n.elapsedMillis with
      | some ms => " took " ++ toString ms ++ "ms"
      | none => "")

end Notice

structure Event where
  id : String
  timestamp : Timestamp
  notice : Notice
deriving DecidableEq, Repr, Inhabited

namespace Event
open Json (kept)

def kindShape : Json.Shape EventKind := .choice EventKind.variants EventKind.name

def severityShape : Json.Shape Severity := .choice Severity.variants Severity.name

def timestampShape : Json.Shape Timestamp :=
  .word "an RFC 3339 formatted date and time string" Timestamp.ofString Timestamp.text

def fields : Json.Fields
    (String × EventKind × Severity × Timestamp × String × Option String × Option String ×
      Option Nat × Unit) :=
  .cons "id" .required kept .text <|
  .cons "kind" .required kept kindShape <|
  .cons "severity" .required kept severityShape <|
  .cons "timestamp" .required kept timestampShape <|
  .cons "message" .required kept .text <|
  .cons "server_id" (.implied none) Option.isNone (.optional .text) <|
  .cons "code" (.implied none) Option.isNone (.optional .text) <|
  .cons "elapsed_ms" (.default none) Option.isNone (.optional (.natural "u64" 64))
  .nil

def shape : Json.Shape Event :=
  .record "StatusEvent" fields
    (fun (id, kind, severity, timestamp, message, server, code, elapsed, ()) =>
      ⟨id, timestamp, kind, message, severity, server, code, elapsed⟩)
    (fun e => (e.id, e.notice.kind, e.notice.severity, e.timestamp, e.notice.message,
      e.notice.server, e.notice.code, e.notice.elapsedMillis, ()))

def toJson (e : Event) : Json := shape.write e

end Event

end Supervisor
