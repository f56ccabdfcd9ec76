import Supervisor.Settings.Layers
import Supervisor.Toml.Shape
import Supervisor.Files.Tree
/-!
# Stored settings

Files of settings are JSON, or TOML if their name ends so. A store keeps JSON files in one
directory, which is made when something is saved.
-/
namespace Supervisor

/-- Reads typed data from a file. -/
def Files.load {α : Type} (fs : Files) (s : Json.Shape α) (p : Path) : Except Fault α :=
  match fs.read p with
  | .error e => .error (.config ("Failed to read " ++ p.text ++ ": " ++ e.message))
  | .ok text =>
    if p.hasExtension "toml" then
      match (Toml.ofString? text).bind s.readToml with
      | some a => .ok a
      | none => .error (.config ("Failed to parse " ++ p.text))
    else match s.ofString text with
      | .ok a => .ok a
      | .error e => .error (.config ("Failed to parse " ++ p.text ++ ": " ++ e.message))

structure Store where
  directory : Path
deriving Repr

namespace Store

/-- The store of a project. -/
def ofProject (root : Path) : Store := ⟨root.join ⟨".warden"⟩⟩

/-- The store of a user, below the directory that holds the settings of all programs. -/
def ofUser (configDirectory : Path) : Store := ⟨configDirectory.join ⟨"warden"⟩⟩

def path (s : Store) (file : Path) : Path := s.directory.join file

def hasFile (s : Store) (fs : Files) (file : Path) : Bool := fs.fileExists (s.path file)

def load {α : Type} (s : Store) (fs : Files) (shape : Json.Shape α) (file : Path) : Except Fault α :=
  fs.load shape (s.path file)

/-- Nothing is loaded from a file that is not there. -/
def loadOptional {α : Type} (s : Store) (fs : Files) (shape : Json.Shape α) (file : Path) :
    Except Fault (Option α) :=
  if s.hasFile fs file then (s.load fs shape file).map some else .ok none

def ensureDirectory (s : Store) (fs : Files) : Except Fault Files :=
  if fs.fileExists s.directory then .ok fs
  else match fs.makeDirectories s.directory with
    | .ok fs => .ok fs
    | .error e => .error (.config ("Failed to create directory: " ++ e.message))

/-- The directory stays if it was made, even if the file cannot be written. -/
def save (s : Store) (fs : Files) (file : Path) (j : Json) : Except Fault Unit × Files :=
  match s.ensureDirectory fs with
  | .error f => (.error f, fs)
  | .ok fs =>
    match fs.write (s.path file) j.pretty with
    | .ok fs => (.ok (), fs)
    | .error e =>
      (.error (.config ("Failed to write " ++ (s.path file).text ++ ": " ++ e.message)), fs)

end Store

namespace Settings

def fileName : Path := ⟨"config.json"⟩

/-- The layers that the stores hold, lowest first; a store without the file adds none. -/
def layersOf (fs : Files) : List Store → Except Fault (List Json)
  | [] => .ok []
  | s :: rest => do
    let layer ← s.loadOptional fs .any fileName
    let layers ← layersOf fs rest
    return layer.toList ++ layers

def loadStores (fs : Files) (stores : List Store) : Except Fault Settings := do
  ofLayers (← layersOf fs stores)

def loadFile (fs : Files) (p : Path) : Except Fault Settings := fs.load shape p

def saveProject (s : Settings) (fs : Files) (root : Path) : Except Fault Unit × Files :=
  (Store.ofProject root).save fs fileName s.toJson

end Settings

end Supervisor
