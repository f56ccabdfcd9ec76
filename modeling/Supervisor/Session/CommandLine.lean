import Supervisor.Session.Arguments
import Supervisor.Session.Checkup
import Supervisor.Session.Conversation
/-!
# The command line

Runs the program on a machine: from its arguments and everything that the user types, to what it has
written and the code with which it exits, if it does.
-/
namespace Supervisor.Session

structure Outcome where
  /-- No code if the program does not exit. -/
  exitCode : Option Nat
  console : Console
  machine : Machine

def succeed (m : Machine) (lines : List String) : Outcome := ⟨some 0, { stdout := lines }, m⟩

/-- What was written so far stays written. -/
def abort (m : Machine) (lines : List String) (reason : String) : Outcome :=
  ⟨some 1, { stdout := lines, stderr := ["Error: " ++ reason] }, m⟩

def check (m : Machine) (file : Option Path) : Outcome :=
  match loadSettings m.host file with
  | .error f => abort m [] f.message
  | .ok s =>
    let c := Checkup.make Machine.workshop m.host m.clock s m
    if c.passed then succeed m c.lines else abort m c.lines "configuration check failed"

/-- Stores settings for the project. Settings that are there are replaced only by force. -/
def init (m : Machine) (command : String) (force : Bool) : Outcome :=
  let root := m.host.workingDirectory
  let store := Store.ofProject root
  if store.hasFile m.host.files Settings.fileName && !force then
    succeed m ["✓ Warden already initialized in this directory.", "  Use --force to reinitialize."]
  else
    let settings : Settings := { server := { command } }
    let (r, files) := settings.saveProject m.host.files root
    let m := { m with host := { m.host with files } }
    match r with
    | .error f => abort m [] f.message
    | .ok () =>
      succeed m
        ["  Created " ++ (store.path Settings.fileName).text, "",
          "Run 'warden check' to verify the language server can be found."]

def run (m : Machine) (file : Option Path) (input : String) : Outcome :=
  match loadSettings m.host file with
  | .error f => abort m [] f.message
  | .ok settings =>
    match (create m file settings).hold (input.splitOn "\n") with
    | .ok s => ⟨some 0, s.console, s.machine⟩
    | .error s => ⟨none, s.console, s.machine⟩

def Mode.execute (m : Machine) (input : String) : Mode → Outcome
  | .run file => Session.run m file input
  | .check file => Session.check m file
  | .init command force => Session.init m command force

def Usage.outcome (m : Machine) (u : Usage) : Outcome :=
  if u.exitCode = 0 then ⟨some u.exitCode, { stdout := [u.message] }, m⟩
  else ⟨some u.exitCode, { stderr := [u.message] }, m⟩

/-- The whole program. -/
def execute (m : Machine) (args : List String) (input : String) : Outcome :=
  match Mode.ofArgs args with
  | .ok mode => mode.execute m input
  | .error u => u.outcome m

end Supervisor.Session
