import Supervisor.Settings.Environment
/-!
# Settings of a session

The settings of the language server, of its environment, and of a companion server that is stopped
while caches are cleared.
-/
namespace Supervisor

structure CompanionSettings where
  server : ServerSettings := {}
  cacheDirectory : Option Path := none
deriving Repr, Inhabited

namespace CompanionSettings

def fields : Json.Fields (ServerSettings × Option Path × Unit) :=
  .cons "server" (.default {}) Json.kept ServerSettings.shape <|
  .cons "cacheDir" (.default none) Option.isNone (.optional Path.shape)
  .nil

def shape : Json.Shape CompanionSettings :=
  .record "CompanionSettings" fields (fun (server, cache, ()) => ⟨server, cache⟩)
    (fun s => (s.server, s.cacheDirectory, ()))

def same (a b : CompanionSettings) : Bool :=
  a.server.same b.server && Path.sameOption a.cacheDirectory b.cacheDirectory

def validate (s : CompanionSettings) : Except Fault Unit :=
  if s.server.hasCommand then .ok () else .error (.config "companion.server.command is not set")

end CompanionSettings

structure Settings where
  version : Nat := 1
  server : ServerSettings := {}
  environment : EnvironmentSettings := {}
  companion : Option CompanionSettings := none
deriving Repr, Inhabited

namespace Settings

def fields : Json.Fields
    (Nat × ServerSettings × EnvironmentSettings × Option CompanionSettings × Unit) :=
  .cons "version" (.default 1) Json.kept (.natural "u32" 32) <|
  .cons "server" (.default {}) Json.kept ServerSettings.shape <|
  .cons "environment" (.default {}) Json.kept EnvironmentSettings.shape <|
  .cons "companion" (.default none) Option.isNone (.optional CompanionSettings.shape)
  .nil

def shape : Json.Shape Settings :=
  .record "WardenConfig" fields
    (fun (version, server, environment, companion, ()) => ⟨version, server, environment, companion⟩)
    (fun s => (s.version, s.server, s.environment, s.companion, ()))

def toJson (s : Settings) : Json := shape.write s

def sameCompanion : Option CompanionSettings → Option CompanionSettings → Bool
  | none, none => true
  | some a, some b => a.same b
  | _, _ => false

def same (a b : Settings) : Bool :=
  a.version == b.version && a.server.same b.server && a.environment.same b.environment &&
    sameCompanion a.companion b.companion

/-- Does a server that runs with `a` have to be restarted to run with `b`? -/
def requiresRestart (a b : Settings) : Bool :=
  a.server.requiresRestart b.server || a.environment.requiresRestart b.environment

def validate (s : Settings) : Except Fault Unit := do
  s.server.validate
  s.environment.validate
  match s.companion with
  | some c => c.validate
  | none => .ok ()

/-- The settings with which the companion server runs. -/
def forCompanion (s : Settings) : Option Settings :=
  s.companion.map fun c =>
    { version := s.version
      server := c.server
      environment := { cacheDirectory := c.cacheDirectory } }

end Settings

end Supervisor
