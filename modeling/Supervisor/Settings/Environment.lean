import Supervisor.Settings.Server
/-!
# Settings of the environment tool

Whether and how an external tool prepares the environment in which a language server runs.
-/
namespace Supervisor

structure EnvironmentSettings where
  enabled : Bool := false
  rccPath : Option Path := none
  robotYaml : Option Path := none
  space : String := "warden"
  timeoutSeconds : Nat := 600
  spacePrefix : Option String := none
  robocorpHome : Option Path := none
  cacheDirectory : Option Path := none
  env : Table String := []
deriving Repr, Inhabited

namespace EnvironmentSettings
open Json (kept)

def fields : Json.Fields
    (Bool × Option Path × Option Path × String × Nat × Option String × Option Path × Option Path ×
      Table String × Unit) :=
  .cons "enabled" (.default false) kept .flag <|
  .cons "rccPath" (.default none) Option.isNone (.optional Path.shape) <|
  .cons "robotYaml" (.default none) Option.isNone (.optional Path.shape) <|
  .cons "space" (.default "warden") kept .text <|
  .cons "timeoutSecs" (.default 600) kept (.natural "u64" 64) <|
  .cons "spacePrefix" (.default none) Option.isNone (.optional .text) <|
  .cons "robocorpHome" (.default none) Option.isNone (.optional Path.shape) <|
  .cons "cacheDir" (.default none) Option.isNone (.optional Path.shape) <|
  .cons "env" (.default []) List.isEmpty (.table .text)
  .nil

def shape : Json.Shape EnvironmentSettings :=
  .record "EnvironmentSettings" fields
    (fun (enabled, rcc, yaml, space, timeout, spacePrefix, home, cache, env, ()) =>
      ⟨enabled, rcc, yaml, space, timeout, spacePrefix, home, cache, env⟩)
    (fun s => (s.enabled, s.rccPath, s.robotYaml, s.space, s.timeoutSeconds, s.spacePrefix,
      s.robocorpHome, s.cacheDirectory, s.env, ()))

def timeout (s : EnvironmentSettings) : Duration := .ofSeconds s.timeoutSeconds

/-- Environments whose space starts with this are deleted when caches are cleared. -/
def collectPrefix (s : EnvironmentSettings) : String := s.spacePrefix.getD s.space

/-- The environment variables that the tool gets. -/
def toolEnv (s : EnvironmentSettings) : Table String :=
  match s.robocorpHome with
  | some home => Table.insert "ROBOCORP_HOME" home.text s.env
  | none => s.env

/-- Do both prepare the same environment? -/
def preparesSame (a b : EnvironmentSettings) : Bool :=
  a.enabled == b.enabled && Path.sameOption a.rccPath b.rccPath &&
    Path.sameOption a.robotYaml b.robotYaml && a.space == b.space &&
    Path.sameOption a.robocorpHome b.robocorpHome && a.env == b.env

def requiresRestart (a b : EnvironmentSettings) : Bool := !a.preparesSame b

def same (a b : EnvironmentSettings) : Bool :=
  a.preparesSame b && a.timeoutSeconds == b.timeoutSeconds && a.spacePrefix == b.spacePrefix &&
    Path.sameOption a.cacheDirectory b.cacheDirectory

def validate (s : EnvironmentSettings) : Except Fault Unit :=
  if s.enabled && s.robotYaml.isNone then
    .error (.config "environment.robotYaml is required when environment is enabled")
  else if (Text.trim s.space.toList).isEmpty then
    .error (.config "environment.space must not be empty")
  else .ok ()

end EnvironmentSettings

end Supervisor
