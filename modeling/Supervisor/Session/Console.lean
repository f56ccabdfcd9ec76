import Supervisor.Event.Basic
/-!
# Consoles

What a session has written for its user: answers on one side, everything else on the other.
-/
namespace Supervisor

structure Console where
  stdout : List String := []
  stderr : List String := []
deriving DecidableEq, Repr

namespace Console

def print (c : Console) (line : String) : Console := { c with stdout := c.stdout ++ [line] }

def complain (c : Console) (line : String) : Console := { c with stderr := c.stderr ++ [line] }

/-- What is of use for debugging only is not shown. -/
def tell (c : Console) (n : Notice) : Console :=
  if n.severity = .debug then c else c.complain n.display

/-- A fault that is not meant for the user is shown with its code. -/
def report (c : Console) (context : String) (f : Fault) : Console :=
  c.complain (context ++ ": " ++
    if f.isUserFacing then f.message else "internal error [" ++ f.code ++ "]: " ++ f.message)

end Console

end Supervisor
