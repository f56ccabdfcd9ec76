import Supervisor.Host.Tool
import Supervisor.Settings.Environment
/-!
# Environments kept by rcc

rcc keeps environments in a holotree, each in a space. Preparing an environment asks rcc for its
variables; clearing caches deletes every environment whose space has a given beginning, and then the
cache directory of the server.
-/
namespace Supervisor.Holotree
open Json (kept)

/-- The name of the tool. -/
def tool : String := "rcc"

/-- The name under which environments are asked for. -/
def controller : String := "warden"

/-- An environment variable as rcc prints it. -/
structure Variable where
  key : String
  value : String

def Variable.fields : Json.Fields (String × String × Unit) :=
  .cons "key" .required kept .text <|
  .cons "value" .required kept .text
  .nil

def Variable.shape : Json.Shape Variable :=
  .record "EnvVar" fields (fun (key, value, ()) => ⟨key, value⟩) (fun v => (v.key, v.value, ()))

/-- An environment as rcc lists it. -/
structure Entry where
  space : Option String

def Entry.fields : Json.Fields (Option String × Unit) :=
  .cons "space" (.default none) kept (.optional .text) .nil

def Entry.shape : Json.Shape Entry :=
  .record "HolotreeEntry" fields (fun (space, ()) => ⟨space⟩) (fun e => (e.space, ()))

def unexpected (what : String) (e : Json.ReadError) : Fault :=
  .externalTool tool (some 0) ("unexpected holotree " ++ what ++ " output: " ++ e.message)

def trimmed (s : String) : String := String.ofList (Text.trim s.toList)

/-- Does the space of an environment begin like this? -/
def Entry.isIn (lead : String) (e : Entry) : Bool :=
  match e.space with
  | some space => lead.toList.isPrefixOf space.toList
  | none => false

/-- The environments whose space begins like this, in ascending order. -/
def readListing (lead output : String) : Except Fault (List String) :=
  match (Json.Shape.table Entry.shape).ofString (trimmed output) with
  | .ok entries => .ok (Table.names (entries.filter fun (_, e) => e.isIn lead))
  | .error e => .error (unexpected "list" e)

/-- The variables in some output; the last value of a repeated name counts. -/
def readVariables (output : String) : Except Fault (Table String) :=
  match (Json.Shape.list Variable.shape).ofString (trimmed output) with
  | .ok vs => .ok (Table.ofList (vs.map fun v => (v.key, v.value)))
  | .error e => .error (unexpected "variables" e)

/-! ## Calls -/

def call (executable : Path) (s : EnvironmentSettings) (args : List String) : Invocation :=
  { executable, args := "holotree" :: args ++ ["--controller", controller], env := s.toolEnv
    timeout := s.timeout }

def listCall (executable : Path) (s : EnvironmentSettings) : Invocation :=
  call executable s ["list", "--json"]

def deleteCall (executable : Path) (s : EnvironmentSettings) (id : String) : Invocation :=
  call executable s ["delete", id]

def variablesCall (executable : Path) (s : EnvironmentSettings) (robotYaml : Path) : Invocation :=
  call executable s ["variables", "--space", s.space, "--json", robotYaml.text]

section
variable {σ : Type} (w : Workshop σ)

/-- The executable in the settings, or the one that is found. -/
def locate (s : EnvironmentSettings) (st : σ) : Except Fault Path :=
  match s.rccPath with
  | some p =>
    if w.exists? st p then .ok p
    else .error (.notFound ("rcc executable not found at " ++ p.text))
  | none =>
    match w.find? st tool with
    | some p => .ok p
    | none => .error (.notFound "rcc executable not found in PATH")

/-- Deletes environments, one after the other, whatever becomes of each. -/
def deleteAll (executable : Path) (s : EnvironmentSettings) (ids : List String) (st : σ) : σ :=
  ids.foldl (fun st id => (w.run (deleteCall executable s id) st).2) st

def removeCache (s : EnvironmentSettings) (st : σ) : σ :=
  match s.cacheDirectory with
  | some dir => w.removeDirectory dir st
  | none => st

/-- Nothing is deleted unless it is known what there is. -/
def clear (s : EnvironmentSettings) (st : σ) : Except Fault Unit × σ :=
  match locate w s st with
  | .error f => (.error f, st)
  | .ok executable =>
    match w.run (listCall executable s) st with
    | (.error f, st) => (.error f, st)
    | (.ok output, st) =>
      match readListing s.collectPrefix output.stdout with
      | .error f => (.error f, st)
      | .ok ids => (.ok (), removeCache w s (deleteAll w executable s ids st))

def prepare (s : EnvironmentSettings) (st : σ) : Except Fault (Table String) × σ :=
  match s.robotYaml with
  | none => (.error (.config "environment.robotYaml is required to prepare environment"), st)
  | some robotYaml =>
    match locate w s st with
    | .error f => (.error f, st)
    | .ok executable =>
      match w.run (variablesCall executable s robotYaml) st with
      | (.error f, st) => (.error f, st)
      | (.ok output, st) => (readVariables output.stdout, st)

end

end Supervisor.Holotree
