import Supervisor.Launcher
import Supervisor.Machine.Basic
/-!
# Servers of a machine

Starting a server, waiting until it is ready, sending requests to it and stopping it.
-/
namespace Supervisor

/-- How long a server may take to end by itself after it was told to. -/
def exitGrace : Nat := 500

/-- How long the answer to a request is waited for. -/
def requestLimit : Nat := 30000

namespace Machine

/-- The number under which the supervisor tells servers that it runs. -/
def processId : Nat := 1

def initializeParams (m : Machine) (s : ServerSettings) : Json :=
  .object [
    ("capabilities", .object [("window", .object [("workDoneProgress", .bool true)])]),
    ("initializationOptions", s.initializationOptions.getD .null),
    ("processId", .nat processId),
    ("rootUri", .string (Lsp.uriOfPath (s.workingDirectory.getD m.host.workingDirectory).text))]

def behaviourOf (m : Machine) (program : String) (n : Nat) : Behaviour :=
  let bs := (m.servers.lookup program).getD []
  (bs[n]?).getD (bs.getLast?.getD [])

/-- Starts a server, and asks it to initialize. -/
def spawn (spec : LaunchSpec) (m : Machine) : Except Fault ServerId × Machine :=
  let s := spec.settings
  match m.start {
      command := s.command, args := s.args, workingDirectory := s.workingDirectory
      environment := Table.override m.host.environment spec.environment } with
  | (.error e, m) => (.error (.spawn s.command e.message), m)
  | (.ok (program, n), m) =>
    let id := "ls-" ++ toString (m.issued + 1)
    let (client, deeds) := Lsp.Client.connect id (m.initializeParams s)
    let c : Connection := { client, settings := s, program, behaviour := m.behaviourOf program n }
    let m := { m with
      issued := m.issued + 1, connections := m.connections ++ [Connection.apply c deeds] }
    (.ok id, m.settle)

/-- Starts a server if its command can be found. -/
def launch (l : Launcher) (spec : LaunchSpec) (m : Machine) :
    Except Fault ServerId × Launcher × Machine :=
  match l.approve m.host m.clock spec.settings with
  | (.error f, l) => (.error f, l, m)
  | (.ok (), l) =>
    match m.spawn spec with
    | (.ok id, m) => (.ok id, l, m)
    | (.error f, m) => (.error f, l.forget spec.settings.command, m)

def isRunning (m : Machine) (id : ServerId) : Bool :=
  match m.connection? id with
  | some c => c.client.isRunning
  | none => false

def unknownFault (id : ServerId) : Fault := .internal ("unknown server " ++ id)

/-- A step of a client. -/
def stepClient (m : Machine) (id : ServerId) (r : Lsp.Client × List Lsp.Deed) : Machine :=
  (m.modify id fun c => Connection.step c r).settle

/-- Waits for the result of a request; nothing if there is none when the time is up, or if there never
is one. -/
def awaitAnswer (m : Machine) (id : ServerId) (n : Nat) (limit : Option Nat) :
    Option (Except Fault Json) × Machine :=
  let answer (m : Machine) := (m.connection? id).bind (·.answers.lookup n)
  let m := m.waitUntil (fun m => (answer m).isSome) limit
  (answer m, m)

/-- Waits until a server is ready; nothing if it is not when the time is up, or if it never is. -/
def waitReady (m : Machine) (id : ServerId) (limit : Option Nat) :
    Option (Except Fault Unit) × Machine :=
  match m.connection? id with
  | none => (some (.error (unknownFault id)), m)
  | some c =>
    let (signal, client) := c.client.takeSignal
    let m := m.stepClient id (client, [])
    match signal with
    | .error r => (some r, m)
    | .ok n =>
      match m.awaitAnswer id n limit with
      | (none, m) => (none, m)
      | (some answer, m) =>
        match m.connection? id with
        | none => (some (.error (unknownFault id)), m)
        | some c =>
          let (r, client, deeds) := c.client.becomeReady answer
          (some r, m.stepClient id (client, deeds))

/-- Begins a request. -/
def beginRequest (m : Machine) (id : ServerId) (method : String) (params : Option Json) :
    Except Fault Nat × Machine :=
  match m.connection? id with
  | none => (.error (unknownFault id), m)
  | some c =>
    let (r, client, deeds) := c.client.request method params
    (r, m.modify id fun c => Connection.step c (client, deeds))

/-- The result of a request that was begun. -/
def endRequest (m : Machine) (id : ServerId) (method : String) :
    Except Fault Nat → Except Fault Json × Machine
  | .error f => (.error f, m)
  | .ok n =>
    match m.awaitAnswer id n (some requestLimit) with
    | (some answer, m) => (answer, m)
    | (none, m) => (.error (Lsp.Client.lateFault method), m)

def request (m : Machine) (id : ServerId) (method : String) (params : Option Json) :
    Except Fault Json × Machine :=
  let (r, m) := m.beginRequest id method params
  m.endRequest id method r

/-- Ends a process that does not end by itself in the given time. -/
def kill (m : Machine) (id : ServerId) (grace : Nat) : Machine :=
  let alive (m : Machine) := ((m.connection? id).map (·.alive)).getD false
  let m := m.waitUntil (fun m => !alive m) (some grace)
  if alive m then m.modify id Connection.die else m

/-- Nobody holds the server any more; it does not outlive that. -/
def discard (m : Machine) (id : ServerId) : Machine := m.kill id 0

/-- Asks a server that is ready to shut down, and tells it to end. -/
def sayGoodbye (m : Machine) (id : ServerId) (c : Connection) : Machine :=
  let (r, client, deeds) := c.client.begin "shutdown" none
  let m := m.stepClient id (client, deeds)
  let m := match r with
    | .ok n => (m.awaitAnswer id n (some c.settings.stopTimeout.millis)).2
    | .error _ => m
  match m.connection? id with
  | some c => m.stepClient id (c.client, (c.client.notify "exit" none).2)
  | none => m

/-- Stops a server, for good and in any case. -/
def stop (m : Machine) (id : ServerId) : Except Fault Unit × Machine :=
  match m.connection? id with
  | none => (.error (unknownFault id), m)
  | some c =>
    match c.client.beginStop with
    | (none, _) => (.ok (), m)
    | (some previous, client) =>
      let m := m.stepClient id (client, [])
      let m := match previous, m.connection? id with
        | .ready, some c => m.sayGoodbye id c
        | _, _ => m
      let m := m.modify id fun c => { c with client := c.client.closeChannel }
      let m := m.kill id (if previous = .ready then exitGrace else 0)
      (.ok (), m.modify id fun c => { c with client := c.client.endStop })

end Machine

end Supervisor
