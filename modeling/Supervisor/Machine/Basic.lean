import Supervisor.Holotree
import Supervisor.Host.Tool
import Supervisor.Lsp.Client
import Supervisor.Machine.Behaviour
/-!
# Machines

A host on which programs with known behaviours are run. Servers are connected with a client, and
what one side writes the other side gets at once. The clock, of milliseconds, moves only when no
server can do anything.
-/
namespace Supervisor

/-- A server process and the client that talks with it. -/
structure Connection where
  client : Lsp.Client
  settings : ServerSettings
  program : String
  behaviour : Behaviour
  alive : Bool := true
  /-- Messages that the server has not looked at. -/
  inbox : List Json := []
  /-- The message that the server looks at. -/
  message : Json := .null
  todo : List Action := []
  busyUntil : Nat := 0
  /-- The identifiers of the messages so far, by method, the latest first. -/
  seen : List (String × Json) := []
  answers : List (Nat × Except Fault Json) := []

structure Machine where
  host : Host
  clock : Nat := 0
  tools : List (String × List ToolBehaviour) := []
  /-- The behaviours of a server, in the order of its starts; the last one serves for all later ones. -/
  servers : List (String × List Behaviour) := []
  /-- The variables that programs record when they start. -/
  probe : List String := []
  /-- The directory in which servers write files. -/
  base : Path
  /-- The programs that were started, the latest first. -/
  starts : List String := []
  /-- What programs have recorded, the latest first. -/
  records : List (String × Json) := []
  connections : List Connection := []
  /-- How many servers have been given a name. -/
  issued : Nat := 0
  /-- How many things servers may do while somebody waits. What would come later does not come. -/
  patience : Nat := 20000

namespace Machine

def connection? (m : Machine) (id : ServerId) : Option Connection :=
  m.connections.find? (·.client.id == id)

def modify (m : Machine) (id : ServerId) (f : Connection → Connection) : Machine :=
  { m with connections := m.connections.map fun c => if c.client.id == id then f c else c }

def record (m : Machine) (program : String) (j : Json) : Machine :=
  { m with records := (program, j) :: m.records }

/-- What a program has recorded, in order. -/
def recordsOf (m : Machine) (program : String) : List Json :=
  (m.records.reverse.filter (·.1 == program)).map (·.2)

def startRecord (probe args : List String) (env : Table String) (fs : Files) : Json :=
  .object [
    ("args", .array (args.map .string)),
    ("cwd", .string ("/" ++ String.intercalate "/" fs.workingDirectory)),
    ("env", .object (probe.filterMap fun n => (Host.valueOf? env n).map fun v => (n, .string v)))]

/-- Starts a program: its name, and how often it was started before. -/
def start (m : Machine) (s : Host.Start) : Except SystemError (String × Nat) × Machine :=
  match m.host.start s with
  | .error e => (.error e, m)
  | .ok (place, fs) =>
    let program := place.getLast?.getD ""
    (.ok (program, m.starts.count program),
      { m with starts := program :: m.starts }.record program
        (startRecord m.probe s.args s.environment fs))

/-! ## Tools -/

/-- Runs a tool. It has to end before its time is up. -/
def runTool (i : Invocation) (m : Machine) : Except Fault ToolOutput × Machine :=
  let s : Host.Start := {
    command := i.executable.text, args := i.args
    environment := Table.override m.host.environment i.env }
  match m.start s with
  | (.error e, m) => (i.judge (.notStarted e), m)
  | (.ok (program, _), m) =>
    let b := ToolBehaviour.choose ((m.tools.lookup program).getD []) i.args
    if b.delay < i.timeout.millis then
      (i.judge (.exited b.code b.stdout b.stderr), { m with clock := m.clock + b.delay })
    else (i.judge .overdue, { m with clock := m.clock + i.timeout.millis })

def removeDirectory (p : Path) (m : Machine) : Machine :=
  match m.host.files.removeDirectory p with
  | .ok files => { m with host := { m.host with files } }
  | .error _ => m

def workshop : Workshop Machine where
  exists? m p := m.host.files.fileExists p
  find? m command := m.host.find? command
  run := runTool
  removeDirectory := removeDirectory

/-! ## Servers at work -/

/-- What a step of the client does for the server and for those who use it. -/
def Connection.apply (c : Connection) : List Lsp.Deed → Connection
  | [] => c
  | .write m :: rest =>
    Connection.apply (if c.alive then { c with inbox := c.inbox ++ [m] } else c) rest
  | .resolve n r :: rest => Connection.apply { c with answers := c.answers ++ [(n, r)] } rest

/-- A step of the client. -/
def Connection.step (c : Connection) (r : Lsp.Client × List Lsp.Deed) : Connection :=
  Connection.apply { c with client := r.1 } r.2

/-- The process ends, and with it everything it was about to do. -/
def Connection.die (c : Connection) : Connection :=
  let c := { c with alive := false, inbox := [], todo := [] }
  Connection.step c c.client.hangUp

def Connection.emit (c : Connection) (j : Json) : Connection :=
  Connection.step c (c.client.hear (Text.encode (Lsp.frame j.compact)))

/-- The identifier for a reply. -/
def Connection.replyId (c : Connection) : Option String → Json
  | some method => (c.seen.lookup method).getD .null
  | none => (c.message.member? "id").getD .null

def writeFile (m : Machine) (file : Path) (text : String) : Machine :=
  let p := m.base.join file
  let files := match m.host.files.write p text with
    | .ok fs => fs
    | .error _ => (m.host.files.install p text false).toOption.getD m.host.files
  { m with host := { m.host with files } }

def act (m : Machine) (id : ServerId) : Action → Machine
  | .reply target members =>
    m.modify id fun c => Connection.emit c (.object ([Lsp.version, ("id", Connection.replyId c target)] ++ members))
  | .send j => m.modify id fun c => Connection.emit c j
  | .print bytes => m.modify id fun c => Connection.step c (c.client.hear bytes)
  | .sleep d => m.modify id fun c => { c with busyUntil := m.clock + d }
  | .write file text => m.writeFile file text
  | .complain => m
  | .leave => m.modify id Connection.die

def Connection.hasWork (c : Connection) : Bool := c.alive && !(c.todo.isEmpty && c.inbox.isEmpty)

/-- The server does the next thing: it finishes what it does for a message before it looks at the
next one. -/
def workOn (m : Machine) (c : Connection) : Machine :=
  let id := c.client.id
  match c.todo, c.inbox with
  | a :: rest, _ => (m.modify id fun c => { c with todo := rest }).act id a
  | [], j :: rest =>
    (m.record c.program j).modify id fun c => { c with
      inbox := rest, message := j, todo := c.behaviour.actions j
      seen := (Behaviour.methodOf j, (j.member? "id").getD .null) :: c.seen }
  | [], [] => m

/-- When the next server is free that has something to do. -/
def nextTime? (m : Machine) : Option Nat :=
  ((m.connections.filter Connection.hasWork).map (·.busyUntil)).min?

/-- The time is up, if it is limited. -/
def expire (m : Machine) : Option Nat → Machine
  | some l => { m with clock := max m.clock l }
  | none => m

/-- Lets servers do up to `n` things, until `done` or the time is up. Without a limit the time is never
up: if it is not `done` in the end, it will not be. -/
def runUntil (done : Machine → Bool) (limit : Option Nat) : Nat → Machine → Machine
  | 0, m => if done m then m else m.expire limit
  | n + 1, m =>
    if done m then m
    else match m.connections.find? fun c => Connection.hasWork c && c.busyUntil ≤ m.clock with
      | some c => runUntil done limit n (m.workOn c)
      | none =>
        match m.nextTime? with
        | some t =>
          if limit.all (t ≤ ·) then runUntil done limit n { m with clock := t } else m.expire limit
        | none => m.expire limit

def waitUntil (m : Machine) (done : Machine → Bool) (limit : Option Nat) : Machine :=
  runUntil done (limit.map (m.clock + ·)) m.patience m

/-- Servers do what they can do at this moment. -/
def settle (m : Machine) : Machine := m.waitUntil (fun _ => false) (some 0)

end Machine

end Supervisor
