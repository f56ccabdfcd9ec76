import Supervisor.Files.Tree
import Supervisor.Table
/-!
# Hosts

Where programs are found: a tree of files, and variables that every process inherits. Looking up a
command asks whether it could be started; starting it looks at the files again.
-/
namespace Supervisor

structure Host where
  files : Files
  environment : Table String := []

namespace Host

/-- What a process finds under a name. It gets each variable as one text, `name=value`, and takes
the first text that begins with the name and `=`, so a name with a `=` in it hides in a value. -/
def valueOf? (env : Table String) (name : String) : Option String :=
  if name = "" then none
  else
    let lead := name.toList ++ ['=']
    env.findSome? fun (n, v) =>
      let entry := n.toList ++ '=' :: v.toList
      if lead.isPrefixOf entry then some (String.ofList (entry.drop lead.length)) else none

/-- The directories in which commands without a slash are looked for. -/
def searchPath (env : Table String) : List Path :=
  match valueOf? env "PATH" with
  | some text => (text.splitOn ":").map Path.mk
  | none => []

def hasSlash (s : String) : Bool := s.toList.contains '/'

def workingDirectory (h : Host) : Path := ⟨"/" ++ String.intercalate "/" h.files.workingDirectory⟩

/-- The places at which the executable file of a command can be, the first choice first. A relative
command of several components is put together anew from them, so a final slash says nothing. -/
def candidates (h : Host) (command : String) : List Path :=
  let p : Path := ⟨command⟩
  match p.components with
  | [] => []
  | [_] => (searchPath h.environment).map fun dir => dir.join p
  | .root :: _ => [p]
  | cs => [h.workingDirectory.join (.ofComponents (cs.dropWhile (· == .here)))]

/-- The executable file for which a command stands. -/
def find? (h : Host) (command : String) : Option Path :=
  (h.candidates command).find? h.files.isExecutable

/-- The place of a file that can be executed. -/
def executableAt (fs : Files) (p : Path) : Except SystemError Place := do
  match ← fs.node p with
  | .file _ true => fs.locate p
  | _ => .error .denied

/-- Tries one directory after the other, as long as there is nothing, or nothing that can be
executed. The answer to the last is the answer to all, unless one of them was `denied`. -/
def searchExecutable (fs : Files) (command : Path) (refused : SystemError) :
    List Path → Except SystemError Place
  | [] => .error refused
  | dir :: rest =>
    match executableAt fs (dir.join command) with
    | .ok place => .ok place
    | .error e =>
      if e = .denied || e = .notFound || e = .notDirectory then
        searchExecutable fs command (if refused = .denied then refused else e) rest
      else .error e

/-- What a process is started with. -/
structure Start where
  command : String
  args : List String := []
  /-- All variables of the process. -/
  environment : Table String := []
  workingDirectory : Option Path := none

def hasZero (s : String) : Bool := s.toList.contains '\x00'

/-- Is there a zero character in what a process is started with? -/
def Start.hasZero (s : Start) : Bool :=
  Host.hasZero s.command || s.args.any Host.hasZero ||
    s.environment.any (fun (n, v) => Host.hasZero n || Host.hasZero v) ||
    (s.workingDirectory.any fun p => Host.hasZero p.text)

/-- The longest argument or variable, in bytes, that a process can be given. -/
def argumentLimit : Nat := 131071

/-- Is there more in an argument or a variable than a process can be given? -/
def Start.isTooLong (s : Start) : Bool :=
  s.args.any (fun a => argumentLimit < a.utf8ByteSize) ||
    s.environment.any (fun (n, v) => argumentLimit < n.utf8ByteSize + 1 + v.utf8ByteSize)

/-- The tree as a process sees it that was started in a directory. -/
def enter (h : Host) (dir : Option Path) : Except SystemError Files :=
  match dir with
  | none => .ok h.files
  | some dir => do
    let place ← h.files.locate dir
    match h.files.root.at? place with
    | some (.directory _) => return { h.files with workingDirectory := place }
    | some (.file _ _) => .error .notDirectory
    | none => .error .notFound

/-- What is executed, and the tree as it sees it. -/
def start (h : Host) (s : Start) : Except SystemError (Place × Files) :=
  if s.hasZero then .error .zeroInData
  else do
    let fs ← h.enter s.workingDirectory
    let place ←
      if s.command = "" then .error .notFound
      else if hasSlash s.command then executableAt fs ⟨s.command⟩
      else searchExecutable fs ⟨s.command⟩ .notFound (searchPath s.environment)
    if s.isTooLong then .error .argumentsTooLong
    return (place, fs)

end Host

end Supervisor
