import Supervisor.Coordinator.Basic
import Supervisor.Host.Basic
/-!
# Launchers

Before a server is started its command is looked up. A launcher remembers for some minutes the commands
that were found, never those that were not, and forgets a command that could not be started.
-/
namespace Supervisor

structure Launcher where
  /-- Whether a command was found, and the time, in milliseconds, at which it was looked up. -/
  known : Table (Bool × Nat) := []
deriving Repr

namespace Launcher

/-- How long a command that was found is not looked up again. -/
def memory : Duration := .ofSeconds 300

/-- Is the command found in the working directory of the server? Then it is not looked up. -/
def isRelative (s : ServerSettings) : Bool :=
  s.workingDirectory.isSome && (s.command.toList.contains '/' || s.command.toList.contains '\\')

/-- What the last lookup of a command has shown, if that is not too long ago. -/
def remembered? (l : Launcher) (now : Nat) (command : String) : Option Bool :=
  match l.known.find? command with
  | some (available, since) => if now - since < memory.millis then some available else none
  | none => none

def note (l : Launcher) (now : Nat) (command : String) (available : Bool) : Launcher :=
  { l with known := l.known.insert command (available, now) }

def isAvailable (l : Launcher) (h : Host) (now : Nat) (command : String) : Bool × Launcher :=
  match l.remembered? now command with
  | some available => (available, l)
  | none =>
    let available := (h.find? command).isSome
    (available, if available then l.note now command true else l)

def forget (l : Launcher) (command : String) : Launcher :=
  { l with known := l.known.erase command }

def missingFault (command : String) : Fault := .spawn command "executable not found"

/-- What is checked before a server is started. -/
def approve (l : Launcher) (h : Host) (now : Nat) (s : ServerSettings) :
    Except Fault Unit × Launcher :=
  match s.validate with
  | .error f => (.error f, l)
  | .ok () =>
    if isRelative s then (.ok (), l)
    else match l.isAvailable h now s.command with
      | (true, l) => (.ok (), l)
      | (false, l) => (.error (missingFault s.command), l)

end Launcher

end Supervisor
