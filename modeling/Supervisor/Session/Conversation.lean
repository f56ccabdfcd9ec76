import Supervisor.Coordinator.Gate
import Supervisor.Session.Basic
import Supervisor.Session.Command
import Supervisor.Session.Sources
/-!
# Conversations

A session starts its servers, carries out what its user says line by line, and stops its servers. A
fault never ends it: the user is told, and can try again.
-/
namespace Supervisor.Session

/-! ## Commands -/

/-- Carries out an operation; of its result only a fault is of interest. -/
def attempt (s : Session) (seat : Seat) (context : String) (op : Operation) : Doing Session := do
  let (r, s) ← carryOut seat op s
  match r with
  | .ok _ => return s
  | .error f => return s.report context f

/-- The companion gets its part of the settings. It cannot come or go while the session runs. -/
def configureCompanion (s : Session) (settings : Settings) : Doing Session :=
  match s.companion, settings.forCompanion with
  | some _, some c => s.attempt .companion "Companion server failed to restart" (.configure c)
  | none, none => .ok s
  | _, _ => .ok (s.complain "Companion server added or removed; restart warden to apply")

def configureMain (s : Session) (settings : Settings) : Doing Session := do
  let (r, s) ← carryOut .main (.configure settings) s
  match r with
  | .ok (.flag false) => return s.complain "Configuration reloaded (no restart needed)"
  | .ok _ => return s
  | .error f => return s.report "Error" f

/-- Settings that cannot be loaded change nothing. -/
def reload (s : Session) : Doing Session :=
  match loadSettings s.machine.host s.settingsFile with
  | .error f => .ok (s.complain ("Failed to reload configuration: " ++ f.message))
  | .ok settings => do (← s.configureCompanion settings).configureMain settings

def statusJson (s : Session) : Json :=
  let state (seat : Seat) : Json := ((s.snapshot? seat).map Coordinator.Snapshot.toJson).getD .null
  .object [("companion", state .companion), ("server", state .main)]

/-- Nothing changes while a session waits, so a request that would have to wait is refused. -/
def request (s : Session) (method : String) (params : Option Json) : Session :=
  let now := s.machine.clock
  let guest : Guest := { command := some method, wait := standardWait, deadline := now }
  let (admission, notices) := guest.look (s.informed s.main.coordinator) now
  let s := notices.foldl publish s
  match admission with
  | .enter id =>
    match s.machine.request id method params with
    | (.ok reply, machine) => { s with machine }.print reply.compact
    | (.error f, machine) => { s with machine }.report "Error" f
  | .refuse f => s.report "Error" f
  | .wait => s

def handle (s : Session) : Command → Doing Session
  | .restart =>
    s.attempt .main "Error" (.restart (if s.hasCrashed then .crash else .command))
  | .clearCaches => s.attempt .main "Error" (.restart .clearCaches)
  | .reload => s.reload
  | .status => .ok (s.print s.statusJson.pretty)
  | .stop => s.attempt .main "Error" .stop
  | .request method params => .ok (s.request method params)
  | .quit => .ok s

/-- The lines are carried out in order, until one of them ends the session. -/
def converse (s : Session) : List String → Doing Session
  | [] => .ok s
  | line :: rest =>
    match Command.ofLine line with
    | .ok none => s.converse rest
    | .ok (some .quit) => .ok s
    | .ok (some c) => do (← s.handle c).converse rest
    | .error e => (s.complain (e.message ++ "\n" ++ Command.help)).converse rest

/-! ## Beginning and end -/

/-- The number by which the main coordinator knows the companion. -/
def companionId : DependentId := 0

def create (m : Machine) (file : Option Path) (settings : Settings) : Session :=
  let main : Coordinator := { name := "language-server", toolName := Holotree.tool, settings }
  match settings.forCompanion with
  | none => { machine := m, main := { coordinator := main }, settingsFile := file }
  | some c => {
      machine := m
      main := { coordinator := main.setDependent companionId }
      companion := some { coordinator := { name := "companion", toolName := "none", settings := c } }
      settingsFile := file }

/-- The companion starts first. -/
def start (s : Session) : Doing Session := do
  let s ← match s.companion with
    | some _ => s.attempt .companion "Companion server failed to start" .activate
    | none => .ok s
  let s ← s.attempt .main "Language server failed to start" .activate
  return s.complain Command.help

/-- The companion stops last. -/
def finish (s : Session) : Doing Session := do
  let (_, s) ← carryOut .main .stop s
  match s.companion with
  | some _ => return (← carryOut .companion .stop s).2
  | none => return s

/-- The whole session, with all lines that its user says. -/
def hold (s : Session) (lines : List String) : Doing Session := do
  (← (← s.start).converse lines).finish

end Supervisor.Session
