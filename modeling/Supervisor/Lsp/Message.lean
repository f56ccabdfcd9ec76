import Supervisor.Json.Shape
import Supervisor.Lsp.Frame
/-!
# Messages

What a language server sends: responses to requests, requests of its own, notifications, and
messages that are none of these. What is sent to it is written with the version of the protocol
first.
-/
namespace Supervisor.Lsp

structure ResponseError where
  code : Int
  message : String
deriving DecidableEq, Repr

def ResponseError.fields : Json.Fields (Int × String × Unit) :=
  .cons "code" .required Json.kept .integer <|
  .cons "message" .required Json.kept .text
  .nil

def ResponseError.shape : Json.Shape ResponseError :=
  .record "JsonRpcError" fields (fun (code, message, ()) => ⟨code, message⟩)
    (fun e => (e.code, e.message, ()))

/-- The members that a message may have. -/
structure Envelope where
  id : Option Json
  method : Option String
  params : Option Json
  result : Option Json
  error : Option ResponseError

def Envelope.fields : Json.Fields
    (Option Json × Option String × Option Json × Option Json × Option ResponseError × Unit) :=
  .cons "id" (.default none) Option.isNone (.optional .any) <|
  .cons "method" (.default none) Option.isNone (.optional .text) <|
  .cons "params" (.default none) Option.isNone (.optional .any) <|
  .cons "result" (.default none) Option.isNone (.optional .any) <|
  .cons "error" (.default none) Option.isNone (.optional ResponseError.shape)
  .nil

def Envelope.shape : Json.Shape Envelope :=
  .record "IncomingMessage" fields
    (fun (id, method, params, result, error, ()) => ⟨id, method, params, result, error⟩)
    (fun e => (e.id, e.method, e.params, e.result, e.error, ()))

inductive Message
  | response (id : Nat) (result : Except ResponseError Json)
  | request (id : Json) (method : String)
  | notification (method : String) (params : Option Json)
  | unknown

def Envelope.classify (e : Envelope) : Message :=
  match e.id, e.method with
  | some id, some method => .request id method
  | none, some method => .notification method e.params
  | some id, none =>
    match id.nat? with
    | some id =>
      match e.error with
      | some error => .response id (.error error)
      | none => .response id (.ok (e.result.getD .null))
    | none => .unknown
  | none, none => .unknown

def Message.ofString (text : String) : Except Json.ReadError Message :=
  (Envelope.shape.ofString text).map Envelope.classify

/-- Reads the body of a frame. Bytes that are no text do no harm in strings that are skipped. -/
def Message.ofBody (bytes : List UInt8) : Except Json.ReadError Message :=
  let d := Json.Document.ofGlyphs (Text.glyphs bytes)
  (d.finish (Envelope.shape.readOutline Json.depthLimit d.value)).map Envelope.classify

def version : String × Json := ("jsonrpc", .string "2.0")

def optionalParams : Option Json → List (String × Json)
  | some p => [("params", p)]
  | none => []

def requestJson (id : Nat) (method : String) (params : Option Json) : Json :=
  .object ([version, ("id", .nat id), ("method", .string method)] ++ optionalParams params)

def notificationJson (method : String) (params : Option Json) : Json :=
  .object ([version, ("method", .string method)] ++ optionalParams params)

/-- A message of which the client is the author. -/
inductive Utterance
  | request (id : Nat) (method : String) (params : Option Json)
  | notification (method : String) (params : Option Json)

def Utterance.json : Utterance → Json
  | .request id method params => requestJson id method params
  | .notification method params => notificationJson method params

def Utterance.method : Utterance → String
  | .request _ method _ | .notification method _ => method

/-- The number of a request. -/
def Utterance.id? : Utterance → Option Nat
  | .request id _ _ => some id
  | .notification _ _ => none

/-- The reply to a request of the server. -/
def emptyReply (id : Json) : Json := .object [version, ("id", id), ("result", .null)]

def uriOfPath (p : String) : String := "file://" ++ p

end Supervisor.Lsp
