import Supervisor.Coordinator.Basic
import Supervisor.Lsp.Frame
import Supervisor.Lsp.Message
import Supervisor.Lsp.State
/-!
# Clients

The side of the supervisor in its talk with one server process. What comes in are bytes, in any
portions; what goes out are messages, and the results of requests that were outstanding. Everything
is a step of a `Client`, so any order of steps can be looked at.

Messages wait in a queue of 32 places until they are written. Here whoever writes them goes on taking
them, so that handing over a message never waits for a place.
-/
namespace Supervisor.Lsp

/-- What a step of a client does for others. -/
inductive Deed
  /-- A message is handed to the server. -/
  | write (m : Json)
  /-- A request that was outstanding has its result. -/
  | resolve (id : Nat) (result : Except Fault Json)

/-- How messages get to the server. -/
inductive Channel
  | intact
  /-- The server does not take anything any more. -/
  | broken
  /-- The client does not hand over anything any more. -/
  | closed
deriving DecidableEq, Repr

structure Client where
  id : ServerId
  state : ServerState := .initializing
  nextId : Nat := 0
  /-- The requests that have no result yet. -/
  outstanding : List Nat := []
  /-- The request whose result says that the server is ready, until someone has asked for it. -/
  signal : Option Nat := none
  capabilities : Option Json := none
  channel : Channel := .intact
  reader : FrameReader := .start

namespace Client

def isRunning (c : Client) : Bool := c.state.isRunning

def notReadyFault (c : Client) : Fault :=
  .unavailable ("language server " ++ c.id ++ " not ready (state: " ++ c.state.name ++ ")")

def terminatedFault (c : Client) : Fault := .request ("language server " ++ c.id ++ " terminated")

def noChannelFault : Fault := .request "LSP message channel not available"

def brokenChannelFault : Fault := .request "Failed to send LSP message: channel closed"

def lateFault (method : String) : Fault := .timeout ("LSP request " ++ method ++ " timed out")

def noSignalFault (c : Client) : Fault :=
  .readyRejected ("ready signal unavailable (state: " ++ c.state.name ++ ")")

def leftEarlyFault (c : Client) : Fault :=
  .readyRejected ("server left initialization early (state: " ++ c.state.name ++ ")")

/-! ## Writing -/

/-- A number is used up, also if the request cannot be written. -/
def count (c : Client) : Client := { c with nextId := c.nextId + 1 }

def enroll (c : Client) (n : Nat) : Client := { c with outstanding := c.outstanding ++ [n] }

def withdraw (c : Client) (n : Nat) : Client :=
  { c with outstanding := c.outstanding.filter (· != n) }

/-- Can a message be handed over? -/
def post (c : Client) : Except Fault Unit :=
  match c.channel with
  | .intact => .ok ()
  | .broken => .error brokenChannelFault
  | .closed => .error noChannelFault

/-- Begins a request: its number, under which the result will come. -/
def begin (c : Client) (method : String) (params : Option Json) :
    Except Fault Nat × Client × List Deed :=
  let n := c.nextId
  let c := c.count.enroll n
  if c.state = .crashed then (.error c.terminatedFault, c.withdraw n, [])
  else match c.post with
    | .ok () => (.ok n, c, [.write (Utterance.request n method params).json])
    | .error f => (.error f, c.withdraw n, [])

def notify (c : Client) (method : String) (params : Option Json) : Except Fault Unit × List Deed :=
  match c.post with
  | .ok () => (.ok (), [.write (Utterance.notification method params).json])
  | .error f => (.error f, [])

/-- A client whose server process has just been started; it asks the server to initialize. -/
def connect (id : ServerId) (params : Json) : Client × List Deed :=
  match ({ id } : Client).begin "initialize" (some params) with
  | (.ok n, c, deeds) => ({ c with signal := some n }, deeds)
  | (.error _, c, deeds) => (c, deeds)

/-- A request of someone who uses the server. -/
def request (c : Client) (method : String) (params : Option Json) :
    Except Fault Nat × Client × List Deed :=
  if c.state = .ready then c.begin method params else (.error c.notReadyFault, c, [])

/-! ## Reading -/

def resultOf : Except ResponseError Json → Except Fault Json
  | .ok j => .ok j
  | .error e => .error (.request ("LSP error " ++ toString e.code ++ ": " ++ e.message))

/-- Takes the body of a frame. Only a response to an outstanding request and a request of the server
have an effect. -/
def take (c : Client) (body : List UInt8) : Client × List Deed :=
  match Message.ofBody body with
  | .ok (.response id result) =>
    if id ∈ c.outstanding then
      ({ c with outstanding := c.outstanding.filter (· != id) }, [.resolve id (resultOf result)])
    else (c, [])
  | .ok (.request id _) => (c, [.write (emptyReply id)])
  | _ => (c, [])

def takeAll : Client → List (List UInt8) → Client × List Deed
  | c, [] => (c, [])
  | c, body :: rest =>
    let (c, first) := c.take body
    let (c, others) := takeAll c rest
    (c, first ++ others)

/-- Reading has ended: the server has crashed unless it was being stopped, and no request will be
answered any more. -/
def endReading (c : Client) (why : ReadEnd) : Client × List Deed :=
  let state := if c.state.isStopping then c.state else .crashed
  ({ c with state, outstanding := [], reader := .ended why },
    c.outstanding.map fun n =>
      .resolve n (.error (.request (why.message ++ " (request " ++ toString n ++ ")"))))

/-- Takes some bytes from the server. -/
def hear (c : Client) (bytes : List UInt8) : Client × List Deed :=
  match c.reader with
  | .ended _ => (c, [])
  | r =>
    let (r, bodies) := r.feed bytes
    let (c, deeds) := takeAll { c with reader := r } bodies
    match r with
    | .ended why =>
      let (c, others) := c.endReading why
      (c, deeds ++ others)
    | _ => (c, deeds)

/-- The server has closed its output. -/
def hangUp (c : Client) : Client × List Deed :=
  match c.reader with
  | .ended _ => (c, [])
  | r => c.endReading r.close

/-! ## Becoming ready -/

/-- The request to wait for, or what is known without waiting. The signal can be taken once. -/
def takeSignal (c : Client) : Except (Except Fault Unit) Nat × Client :=
  match c.signal with
  | some n => (.ok n, { c with signal := none })
  | none => (.error (if c.state = .ready then .ok () else .error c.noSignalFault), c)

def adopt (c : Client) (answer : Json) : Client :=
  { c with capabilities := (answer.member? "capabilities").orElse fun _ => c.capabilities }

/-- The server is ready, unless something has happened to it meanwhile. -/
def enterReady (c : Client) : Except Fault Unit × Client :=
  if c.state = .initializing then (.ok (), { c with state := .ready })
  else (.error c.leftEarlyFault, c)

/-- The initialize request has its result. -/
def becomeReady (c : Client) (result : Except Fault Json) : Except Fault Unit × Client × List Deed :=
  match result with
  | .error f => (.error (.readyRejected f.message), c, [])
  | .ok answer =>
    let c := c.adopt answer
    match c.notify "initialized" (some (.object [])) with
    | (.error f, deeds) => (.error (.readyRejected f.message), c, deeds)
    | (.ok (), deeds) =>
      let (r, c) := c.enterReady
      (r, c, deeds)

/-! ## Stopping -/

/-- Begins to stop: the state before, or nothing if a stop has begun already. -/
def beginStop (c : Client) : Option ServerState × Client :=
  if c.state.isStopping then (none, c) else (some c.state, { c with state := .shuttingDown })

/-- The server does not take messages any more. -/
def breakChannel (c : Client) : Client :=
  { c with channel := if c.channel = .closed then .closed else .broken }

def closeChannel (c : Client) : Client := { c with channel := .closed }

def endStop (c : Client) : Client := { c with state := .shutdown }

end Client

end Supervisor.Lsp
