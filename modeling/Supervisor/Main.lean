import Supervisor.Session.CommandLine
/-!
# The program

Runs the command line on a picture of this host: the variables, the files of settings, and the
programs that are found. No program is started from here; a server that is found behaves in the
standard way, so a session is a trial run. Settings that are stored are written to the real files.
-/
namespace Supervisor.Main

/-- Adds a file of settings to the picture, if there is one. -/
def addSettings (files : Files) (p : Path) : IO Files := do
  try
    let text ← IO.FS.readFile p.text
    return (files.install p text false).toOption.getD files
  catch _ => return files

/-- Adds a program to the picture, if there is one. -/
def addProgram (files : Files) (p : Path) : IO Files := do
  try
    let handle ← IO.FS.Handle.mk p.text .read
    let _ ← handle.read 1
    return (files.install p "" true).toOption.getD files
  catch _ => return files

def readEnvironment : IO (Table String) := do
  let found ← ["PATH", "HOME", "XDG_CONFIG_HOME"].filterMapM fun name => do
    return (← IO.getEnv name).map fun value => (name, value)
  return Table.ofList found

def commandsOf (s : Settings) : List String :=
  s.server.command :: Holotree.tool :: (s.companion.map (·.server.command)).toList

def settingsFileOf : Except Session.Usage Session.Mode → Option Path
  | .ok (.run file) | .ok (.check file) => file
  | _ => none

/-- The picture that a mode needs. -/
def readHost (mode : Except Session.Usage Session.Mode) : IO Host := do
  let home := (← IO.getEnv "PWD").getD "/"
  let host : Host := { files := Files.empty ⟨home⟩, environment := ← readEnvironment }
  let file := settingsFileOf mode
  let sources := file.toList ++ host.stores.map (·.path Settings.fileName)
  let host := { host with files := ← sources.foldlM addSettings host.files }
  match Session.loadSettings host file with
  | .error _ => return host
  | .ok s =>
    let places := (commandsOf s).flatMap host.candidates ++ s.environment.rccPath.toList
    return { host with files := ← places.foldlM addProgram host.files }

/-- All lines, each with its end. -/
partial def readAll (stream : IO.FS.Stream) (text : String) : IO String := do
  let line ← stream.getLine
  if line.isEmpty then return text
  readAll stream (text ++ line)

/-- Writes the settings of the project if they have changed. -/
def writeSettings (before after : Host) : IO Unit := do
  let store := Store.ofProject before.workingDirectory
  let p := store.path Settings.fileName
  let text (h : Host) := (h.files.read p).toOption
  match text after with
  | some new =>
    if text before != some new then
      IO.FS.createDirAll store.directory.text
      IO.FS.writeFile p.text new
  | none => return

end Supervisor.Main

open Supervisor in
def main (args : List String) : IO UInt32 := do
  let mode := Session.Mode.ofArgs args
  let host ← Main.readHost mode
  let input ← match mode with
    | .ok (.run _) => Main.readAll (← IO.getStdin) ""
    | _ => pure ""
  let outcome := Session.execute { host, base := host.workingDirectory } args input
  Main.writeSettings host outcome.machine.host
  outcome.console.stdout.forM IO.println
  outcome.console.stderr.forM IO.eprintln
  -- A trial run does not wait for what never comes.
  return UInt32.ofNat (outcome.exitCode.getD 1)
