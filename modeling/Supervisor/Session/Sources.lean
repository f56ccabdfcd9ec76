import Supervisor.Host.Basic
import Supervisor.Settings.Store
/-!
# Sources of settings

A session reads its settings from a file that it is given, or else from what the user and the project
have stored. It goes on only with settings that are valid.
-/
namespace Supervisor

namespace Host

/-- The directory of the user's settings for all programs. -/
def configDirectory? (h : Host) : Option Path :=
  let nonempty (name : String) := (h.environment.find? name).filter (· != "")
  match (nonempty "XDG_CONFIG_HOME").filter (Path.isAbsolute ⟨·⟩) with
  | some dir => some ⟨dir⟩
  | none => (nonempty "HOME").map fun home => Path.join ⟨home⟩ ⟨".config"⟩

/-- The stores of the user and of the project; the project comes last and wins. -/
def stores (h : Host) : List Store :=
  (h.configDirectory?.map Store.ofUser).toList ++ [Store.ofProject h.workingDirectory]

end Host

namespace Session

/-- Settings from a file, or from the stores of the host. -/
def loadSettings (h : Host) (file : Option Path) : Except Fault Settings := do
  let s ← match file with
    | some p => Settings.loadFile h.files p
    | none => Settings.loadStores h.files h.stores
  s.validate
  return s

end Session

end Supervisor
