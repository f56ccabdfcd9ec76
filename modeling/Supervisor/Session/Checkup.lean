import Supervisor.Holotree
import Supervisor.Launcher
/-!
# Checkups

What can be said about settings before anything is started: whether the commands of the servers are
found, and the tool that prepares the environment.
-/
namespace Supervisor.Session

structure Checkup where
  settings : Settings
  serverFound : Bool
  /-- Only if there is a companion. -/
  companionFound : Option Bool
  /-- Only if an environment is prepared. -/
  tool : Option (Except Fault Path)

namespace Checkup

/-- The command of each server is looked up, wherever the server is to work. -/
def make {σ : Type} (w : Workshop σ) (h : Host) (now : Nat) (s : Settings) (st : σ) : Checkup :=
  let (serverFound, l) := ({} : Launcher).isAvailable h now s.server.command
  { settings := s, serverFound
    companionFound := s.companion.map fun c => (l.isAvailable h now c.server.command).1
    tool := if s.environment.enabled then some (Holotree.locate w s.environment st) else none }

def passed (c : Checkup) : Bool :=
  c.serverFound && c.companionFound.getD true &&
    match c.tool with
    | some (.error _) => false
    | _ => true

def serverLines (c : Checkup) : List String :=
  let line (what missing command : String) (found : Bool) : String :=
    if found then "✓ " ++ what ++ ": " ++ command else "✗ " ++ missing ++ ": " ++ command
  line "Language server" "Language server not found" c.settings.server.command c.serverFound ::
    match c.settings.companion, c.companionFound with
    | some s, some found =>
      [line "Companion server" "Companion server not found" s.server.command found]
    | _, _ => []

def toolLines (c : Checkup) : List String :=
  match c.tool with
  | none => ["- Environment preparation disabled"]
  | some (.error f) => ["✗ " ++ Holotree.tool ++ ": " ++ f.message]
  | some (.ok p) =>
    ["✓ " ++ Holotree.tool ++ ": " ++ p.text] ++
      (c.settings.environment.robocorpHome.map fun home => "  ROBOCORP_HOME: " ++ home.text).toList ++
      ["  Clears spaces starting with: " ++ c.settings.environment.collectPrefix]

def timeoutLine (c : Checkup) : String :=
  "  Ready timeout: " ++
    match c.settings.server.readyTimeout with
    | some limit => limit.text
    | none => "none"

/-- What the user is told. -/
def lines (c : Checkup) : List String :=
  [c.settings.toJson.pretty, ""] ++ c.serverLines ++ c.toolLines ++ [c.timeoutLine]

end Checkup

end Supervisor.Session
