import Supervisor.Lsp.Client
/-!
# Talks

A client and all who use it at the same time. What a user asks for is a call, which goes on step by
step; between two steps of a call other calls may go on, the server may be heard, and the time of a call
may be up. Each step looks at the client or changes it once.
-/
namespace Supervisor.Lsp

/-! ## Calls -/

/-- How far a request is on its way to the server. -/
inductive Sending
  | count
  | enroll (n : Nat)
  | check (n : Nat)
  | post (n : Nat)
  | withdraw (n : Nat) (f : Fault)

/-- Starting a server. -/
inductive Spawning
  | sending (s : Sending)
  | arm (n : Nat)
  | ended (r : Except Fault Unit)

/-- Waiting until a server is ready. -/
inductive Readying
  | begin
  | await (n : Nat)
  | greet
  | enter
  | ended (r : Except Fault Unit)

inductive Requesting
  | begin
  | sending (s : Sending)
  | await (n : Nat)
  | ended (r : Except Fault Json)

inductive Stopping
  | begin
  | sending (s : Sending)
  | await (n : Nat)
  | farewell
  | close
  | kill
  | finish (r : Except Fault Unit)
  /-- Some calls find that another one is at work, and do nothing. -/
  | ended (atWork : Bool) (r : Except Fault Unit)

inductive Call
  | spawn (command : String) (params : Json) (p : Spawning)
  | waitReady (p : Readying)
  | request (method : String) (params : Option Json) (p : Requesting)
  | stop (p : Stopping)
  /-- Nobody waits for the call any more, and it does not go on. -/
  | dropped

/-- What someone can ask for who has a server. -/
inductive Task
  | waitReady
  | request (method : String) (params : Option Json)
  | stop

def Task.call : Task → Call
  | .waitReady => .waitReady .begin
  | .request method params => .request method params .begin
  | .stop => .stop .begin

def hello (params : Json) : Utterance := .request 0 "initialize" (some params)

def greeting : Utterance := .notification "initialized" (some (.object []))

def goodbye : Utterance := .notification "exit" none

/-- The client after a step, and what the step has said to the server. -/
abbrev Effect := Client × Option Utterance

/-- A step of a request on its way, up to its number under which the result will come. -/
def Sending.step (method : String) (params : Option Json) (c : Client) :
    Sending → (Sending ⊕ Except Fault Nat) × Effect
  | .count => (.inl (.enroll c.nextId), c.count, none)
  | .enroll n => (.inl (.check n), c.enroll n, none)
  | .check n =>
    if c.state = .crashed then (.inl (.withdraw n c.terminatedFault), c, none)
    else (.inl (.post n), c, none)
  | .post n =>
    match c.post with
    | .ok () => (.inr (.ok n), c, some (.request n method params))
    | .error f => (.inl (.withdraw n f), c, none)
  | .withdraw n f => (.inr (.error f), c.withdraw n, none)

def Spawning.sent (command : String) : Except Fault Nat → Spawning
  | .ok n => .arm n
  | .error f => .ended (.error (.spawn command f.message))

def Requesting.sent : Except Fault Nat → Requesting
  | .ok n => .await n
  | .error f => .ended (.error f)

/-- A server that cannot be asked to shut down is told to end all the same. -/
def Stopping.sent : Except Fault Nat → Stopping
  | .ok n => .await n
  | .error _ => .farewell

def Spawning.step (command : String) (params : Json) (c : Client) :
    Spawning → Option (Spawning × Effect)
  | .sending s =>
    let (next, effect) := s.step "initialize" (some params) c
    some (next.elim .sending (sent command), effect)
  | .arm n => some (.ended (.ok ()), { c with signal := some n }, none)
  | .ended _ => none

section
-- The results of requests so far, and the client.
variable (result? : Nat → Option (Except Fault Json)) (c : Client)

def Readying.step : Readying → Option (Readying × Effect)
  | .begin =>
    match c.takeSignal with
    | (.ok n, c) => some (.await n, c, none)
    | (.error r, c) => some (.ended r, c, none)
  | .await n =>
    (result? n).map fun
      | .ok answer => (.greet, c.adopt answer, none)
      | .error f => (.ended (.error (.readyRejected f.message)), c, none)
  | .greet =>
    match c.post with
    | .ok () => some (.enter, c, some greeting)
    | .error f => some (.ended (.error (.readyRejected f.message)), c, none)
  | .enter =>
    let (r, c) := c.enterReady
    some (.ended r, c, none)
  | .ended _ => none

def Requesting.step (method : String) (params : Option Json) : Requesting → Option (Requesting × Effect)
  | .begin =>
    if c.state = .ready then some (.sending .count, c, none)
    else some (.ended (.error c.notReadyFault), c, none)
  | .sending s =>
    let (next, effect) := s.step method params c
    some (next.elim .sending sent, effect)
  | .await n => (result? n).map fun r => (.ended r, c, none)
  | .ended _ => none

def Stopping.step : Stopping → Option (Stopping × Effect)
  | .begin =>
    match c.beginStop with
    | (none, c) => some (.ended false (.ok ()), c, none)
    | (some .ready, c) => some (.sending .count, c, none)
    | (some _, c) => some (.close, c, none)
  | .sending s =>
    let (next, effect) := s.step "shutdown" none c
    some (next.elim .sending sent, effect)
  | .await n => (result? n).map fun _ => (.farewell, c, none)
  | .farewell => some (.close, c, match c.post with | .ok () => some goodbye | .error _ => none)
  | .close => some (.kill, c.closeChannel, none)
  | .kill => none
  | .finish r => some (.ended true r, c.endStop, none)
  | .ended _ _ => none

/-- A step of a call, if it does not have to wait and is not over. -/
def Call.step : Call → Option (Call × Effect)
  | .spawn command params p => (p.step command params c).map fun (p, e) => (.spawn command params p, e)
  | .waitReady p => (p.step result? c).map fun (p, e) => (.waitReady p, e)
  | .request method params p =>
    (p.step result? c method params).map fun (p, e) => (.request method params p, e)
  | .stop p => (p.step result? c).map fun (p, e) => (.stop p, e)
  | .dropped => none

end

namespace Call

def isOver : Call → Bool
  | .spawn _ _ (.ended _) | .waitReady (.ended _) | .request _ _ (.ended _) | .stop (.ended _ _) => true
  | .dropped => true
  | _ => false

/-- The call waits for a result, and its time is up. -/
def expire? : Call → Option Call
  | .request method params (.await _) =>
    some (.request method params (.ended (.error (Client.lateFault method))))
  | .stop (.await _) => some (.stop .farewell)
  | _ => none

/-- The process has ended, or it cannot be ended. -/
def killed? (r : Except Fault Unit) : Call → Option Call
  | .stop .kill => some (.stop (.finish r))
  | _ => none

def drop? (call : Call) : Option Call := if call.isOver then none else some .dropped

end Call

/-! ## Talks -/

inductive Entry
  | said (u : Utterance)
  /-- Something that came of what the server has sent. -/
  | did (d : Deed)

def Entry.utterance? : Entry → Option Utterance
  | .said u => some u
  | .did _ => none

structure Talk where
  client : Client
  calls : List Call
  log : List Entry := []

inductive Move
  | issue (task : Task)
  | advance (i : Nat)
  | expire (i : Nat)
  | killed (i : Nat) (r : Except Fault Unit)
  | drop (i : Nat)
  | hear (bytes : List UInt8)
  | hangUp
  | breakChannel

namespace Talk

def start (id : ServerId) (command : String) (params : Json) : Talk where
  client := { id }
  calls := [.spawn command params (.sending .count)]

/-- Is there a server to be used? -/
def isSpawned (t : Talk) : Bool :=
  match t.calls with
  | .spawn _ _ (.ended (.ok ())) :: _ => true
  | _ => false

def isQuiet (t : Talk) : Bool := t.calls.all Call.isOver

def resultIn? (log : List Entry) (n : Nat) : Option (Except Fault Json) :=
  log.findSome? fun
    | .did (.resolve m r) => if m = n then some r else none
    | _ => none

/-- The messages of which the client is the author, in the order in which they were written. -/
def said (t : Talk) : List Utterance := t.log.filterMap Entry.utterance?

/-- The `i`-th call is at another point now. -/
def turn (t : Talk) (i : Nat) (call : Call) (e : Effect) : Talk where
  client := e.1
  calls := t.calls.set i call
  log := t.log ++ (e.2.map Entry.said).toList

/-- The reader has done its work. -/
def absorb (t : Talk) (r : Client × List Deed) : Talk :=
  { t with client := r.1, log := t.log ++ r.2.map .did }

def step (t : Talk) : Move → Option Talk
  | .issue task => if t.isSpawned then some { t with calls := t.calls ++ [task.call] } else none
  | .advance i =>
    (t.calls[i]?.bind (Call.step (resultIn? t.log) t.client)).map fun (call, e) => t.turn i call e
  | .expire i => (t.calls[i]?.bind Call.expire?).map fun call => t.turn i call (t.client, none)
  | .killed i r => (t.calls[i]?.bind (Call.killed? r)).map fun call => t.turn i call (t.client, none)
  | .drop i => (t.calls[i]?.bind Call.drop?).map fun call => t.turn i call (t.client, none)
  | .hear bytes => some (t.absorb (t.client.hear bytes))
  | .hangUp => some (t.absorb t.client.hangUp)
  | .breakChannel => some (t.absorb (t.client.breakChannel, []))

end Talk

end Supervisor.Lsp
