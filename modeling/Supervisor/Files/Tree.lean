import Supervisor.Files.Path
import Supervisor.Files.SystemError
import Supervisor.Table
/-!
# File trees

A tree of directories and text files, and a working directory in it. Paths are resolved name by
name: every name but the last has to be a directory, and `..` goes to the directory above.
-/
namespace Supervisor

inductive Node
  | file (text : String) (executable : Bool)
  | directory (entries : List (String × Node))
deriving Repr, Inhabited

structure Files where
  root : Node
  workingDirectory : List String
deriving Repr, Inhabited

/-- The names from the root to a place in the tree. -/
abbrev Place := List String

namespace Node

def entries : Node → List (String × Node)
  | .directory es => es
  | .file _ _ => []

def isDirectory : Node → Bool
  | .directory _ => true
  | .file _ _ => false

def at? : Node → Place → Option Node
  | n, [] => some n
  | n, name :: rest => (Table.find? n.entries name).bind (·.at? rest)

/-- Puts `new` at a place whose directories exist; `none` takes away what is there. -/
def put (new : Option Node) : Node → Place → Node
  | n, [] => new.getD n
  | .directory es, [name] =>
    match new with
    | some new => .directory (Table.insert name new es)
    | none => .directory (Table.erase name es)
  | .directory es, name :: rest =>
    match Table.find? es name with
    | some child => .directory (Table.insert name (put new child rest) es)
    | none => .directory es
  | n, _ :: _ => n

end Node

namespace Files

/-- The longest name, in bytes, that a directory may hold. -/
def nameLimit : Nat := 255

/-- The longest path, in bytes, that is followed. -/
def pathLimit : Nat := 4095

/-- The names in a path. `.` is among them, because it asks for a directory. -/
def names (p : Path) : List String := p.segments.filter (· != "")

/-- Does the path name a directory by its form, whatever is there? -/
def endsWithSlash (p : Path) : Bool := p.text.toList.getLast? == some '/'

/-- The names to follow. A final slash asks for a directory as `.` does. -/
def route (p : Path) : List String := if endsWithSlash p then names p ++ ["."] else names p

/-- Follows names from a place; the last one need not exist. -/
def follow (root : Node) (here : Place) : List String → Except SystemError Place
  | [] => .ok here
  | name :: rest =>
    match root.at? here with
    | none => .error .notFound
    | some (.file _ _) => .error .notDirectory
    | some (.directory _) =>
      if nameLimit < name.utf8ByteSize then .error .nameTooLong
      else
        follow root (if name == "." then here else if name == ".." then here.dropLast else here ++ [name])
          rest

/-- The place from which the names of a path are followed, if the path can be followed at all. -/
def origin (fs : Files) (p : Path) : Except SystemError Place :=
  if p.text == "" then .error .notFound
  else if p.text.toList.contains '\x00' then .error .zeroInName
  else if pathLimit < p.text.utf8ByteSize then .error .nameTooLong
  else .ok (if p.isAbsolute then [] else fs.workingDirectory)

def locate (fs : Files) (p : Path) : Except SystemError Place := do
  follow fs.root (← fs.origin p) (route p)

def node (fs : Files) (p : Path) : Except SystemError Node := do
  let place ← fs.locate p
  match fs.root.at? place with
  | some n => return n
  | none => .error .notFound

def fileExists (fs : Files) (p : Path) : Bool := (fs.node p).toOption.isSome

def isDirectory (fs : Files) (p : Path) : Bool :=
  match fs.node p with
  | .ok n => n.isDirectory
  | .error _ => false

def isExecutable (fs : Files) (p : Path) : Bool :=
  match fs.node p with
  | .ok (.file _ executable) => executable
  | _ => false

def read (fs : Files) (p : Path) : Except SystemError String := do
  match ← fs.node p with
  | .file text _ => return text
  | .directory _ => .error .isDirectory

def put (fs : Files) (place : Place) (new : Option Node) : Files :=
  { fs with root := fs.root.put new place }

/-- Writes a file into an existing directory. A file that is there keeps its permissions. -/
def write (fs : Files) (p : Path) (text : String) : Except SystemError Files := do
  if endsWithSlash p then
    let _ ← follow fs.root (← fs.origin p) ((names p).dropLast ++ ["."])
    .error .isDirectory
  else
    let place ← fs.locate p
    match fs.root.at? place with
    | some (.directory _) => .error .isDirectory
    | some (.file _ executable) => return fs.put place (some (.file text executable))
    | none => return fs.put place (some (.file text false))

def makeDirectory (fs : Files) (p : Path) : Except SystemError Files := do
  let place ← follow fs.root (← fs.origin p) (names p)
  match fs.root.at? place with
  | some _ => .error .alreadyThere
  | none => return fs.put place (some (.directory []))

/-- The path without its last component. -/
def parent? (p : Path) : Option Path :=
  match p.components.reverse with
  | [] | .root :: _ => none
  | _ :: before => some (.ofComponents before.reverse)

/-- Makes a directory and, where they are missing, the `fuel` directories above it. -/
def makeAll (fs : Files) (p : Path) : Nat → Except SystemError Files
  | 0 => .ok fs
  | fuel + 1 =>
    if p.text == "" then .ok fs
    else match fs.makeDirectory p with
      | .ok fs => .ok fs
      | .error e =>
        if e ≠ .notFound then if fs.isDirectory p then .ok fs else .error e
        else match parent? p with
          | none => .error e
          | some q => do
            let fs ← fs.makeAll q fuel
            match fs.makeDirectory p with
            | .ok fs => .ok fs
            | .error e => if fs.isDirectory p then .ok fs else .error e

/-- Makes a directory with all directories above it. -/
def makeDirectories (fs : Files) (p : Path) : Except SystemError Files :=
  fs.makeAll p (p.components.length + 1)

/-- Does the path end in the name under which the directory above holds what is there? -/
def endsInName (p : Path) : Bool :=
  match (names p).getLast? with
  | some name => name != "." && name != ".."
  | none => false

/-- Removes a directory with all that is in it. A directory that the path does not name by its own
name is emptied and stays. -/
def removeDirectory (fs : Files) (p : Path) : Except SystemError Files := do
  let place ← fs.locate p
  match fs.root.at? place with
  | none => .error .notFound
  | some (.file _ _) => .error .notDirectory
  | some (.directory _) => return fs.put place (if endsInName p then none else some (.directory []))

def removeFile (fs : Files) (p : Path) : Except SystemError Files := do
  let place ← fs.locate p
  match fs.root.at? place with
  | none => .error .notFound
  | some (.directory _) => .error .isDirectory
  | some (.file _ _) => return fs.put place none

/-- Puts a file at a path, with all directories above it. -/
def install (fs : Files) (p : Path) (text : String) (executable : Bool) : Except SystemError Files := do
  let fs ← match parent? p with
    | some q => fs.makeDirectories q
    | none => .ok fs
  let place ← fs.locate p
  return fs.put place (some (.file text executable))

/-- A tree with one empty directory, which is the working directory. -/
def empty (place : Path) : Files :=
  let fs : Files := ⟨.directory [], []⟩
  match fs.makeDirectories place with
  | .ok fs => { fs with workingDirectory := (fs.locate place).toOption.getD [] }
  | .error _ => fs

end Files

end Supervisor
