import Supervisor.Holotree
import Supervisor.Proofs.Json.Place
/-!
# Calls that are written down

A workshop can write down what is done in it: the programs that were run, with how they ended, and the
directories that were removed. Writing it down changes nothing else.
-/
namespace Supervisor

inductive Deed
  | ran (i : Invocation) (r : Except Fault ToolOutput)
  | removed (p : Path)

/-- The same workshop, with a book of deeds, the latest last. -/
def Workshop.recording {σ : Type} (w : Workshop σ) : Workshop (σ × List Deed) where
  exists? st p := w.exists? st.1 p
  find? st command := w.find? st.1 command
  run i st := ((w.run i st.1).1, (w.run i st.1).2, st.2 ++ [.ran i (w.run i st.1).1])
  removeDirectory p st := (w.removeDirectory p st.1, st.2 ++ [.removed p])

namespace Holotree

/-- The call is one of the tool's: its arguments and variables, apart from those that every call has. -/
structure Calls (s : EnvironmentSettings) (executable : Path) (args : List String) (i : Invocation) :
    Prop where
  executable_eq : i.executable = executable
  args_eq : i.args = args ++ ["--controller", "warden"]
  env_eq : ∀ name, i.env.find? name =
    if name = "ROBOCORP_HOME" then (s.robocorpHome.map Path.text).or (s.env.find? name)
    else s.env.find? name

theorem find?_toolEnv (s : EnvironmentSettings) (name : String) :
    s.toolEnv.find? name =
      if name = "ROBOCORP_HOME" then (s.robocorpHome.map Path.text).or (s.env.find? name)
      else s.env.find? name := by
  unfold EnvironmentSettings.toolEnv
  cases s.robocorpHome with
  | none => simp
  | some home => simp [Table.find?_insert]

theorem calls_call (s : EnvironmentSettings) (executable : Path) (args : List String) :
    Calls s executable ("holotree" :: args) (call executable s args) where
  executable_eq := rfl
  args_eq := rfl
  env_eq := find?_toolEnv s

section
variable {σ : Type} (w : Workshop σ)

theorem locate_recording (s : EnvironmentSettings) (st : σ) (log : List Deed) :
    locate w.recording s (st, log) = locate w s st := rfl

/-- The deeds of a deletion: one call for each environment, in order. -/
theorem deleteAll_recording (executable : Path) (s : EnvironmentSettings) (ids : List String) (st : σ)
    (log : List Deed) : ∃ deletions,
      deleteAll w.recording executable s ids (st, log) =
        (deleteAll w executable s ids st, log ++ deletions) ∧
      List.Forall₂ (fun id d => ∃ r, d = .ran (deleteCall executable s id) r) ids deletions := by
  induction ids generalizing st log with
  | nil => exact ⟨[], by simp [deleteAll], .nil⟩
  | cons id ids ih =>
    obtain ⟨deletions, h, hall⟩ := ih (w.run (deleteCall executable s id) st).2
      (log ++ [.ran (deleteCall executable s id) (w.run (deleteCall executable s id) st).1])
    refine ⟨.ran (deleteCall executable s id) (w.run (deleteCall executable s id) st).1 :: deletions,
      ?_, .cons ⟨_, rfl⟩ hall⟩
    rw [List.append_assoc] at h
    exact h

theorem removeCache_recording (s : EnvironmentSettings) (st : σ) (log : List Deed) :
    removeCache w.recording s (st, log) =
      (removeCache w s st, log ++ (s.cacheDirectory.map Deed.removed).toList) := by
  unfold removeCache
  cases s.cacheDirectory with
  | none => simp
  | some dir => rfl

/-! ## Preparing -/

/-- How a preparation ends, and what it does to the machine: it asks for the variables, or nothing. -/
inductive Prepares (s : EnvironmentSettings) : Except Fault (Table String) → List Deed → Prop
  | refused {f : Fault} : Prepares s (.error f) []
  | failed {p yaml : Path} {i : Invocation} {f : Fault} (hy : s.robotYaml = some yaml)
      (hi : Calls s p ["holotree", "variables", "--space", s.space, "--json", yaml.text] i) :
      Prepares s (.error f) [.ran i (.error f)]
  | told {p yaml : Path} {i : Invocation} {output : ToolOutput} (hy : s.robotYaml = some yaml)
      (hi : Calls s p ["holotree", "variables", "--space", s.space, "--json", yaml.text] i) :
      Prepares s (readVariables output.stdout) [.ran i (.ok output)]

theorem prepare_recording (s : EnvironmentSettings) (st : σ) (log : List Deed) :
    ∃ deeds, prepare w.recording s (st, log) =
        ((prepare w s st).1, (prepare w s st).2, log ++ deeds) ∧
      Prepares s (prepare w s st).1 deeds := by
  cases hy : s.robotYaml with
  | none => exact ⟨[], by simp [prepare, hy], by simpa [prepare, hy] using .refused⟩
  | some yaml =>
    cases hp : locate w s st with
    | error f =>
      exact ⟨[], by simp [prepare, hy, locate_recording, hp], by simpa [prepare, hy, hp] using .refused⟩
    | ok p =>
      have hi := calls_call s p ["variables", "--space", s.space, "--json", yaml.text]
      cases hr : w.run (variablesCall p s yaml) st with
      | mk r st' =>
        have hr' : w.recording.run (variablesCall p s yaml) (st, log) =
            (r, st', log ++ [.ran (variablesCall p s yaml) r]) := by simp [Workshop.recording, hr]
        refine ⟨[.ran (variablesCall p s yaml) r], ?_, ?_⟩
        · cases r <;> simp [prepare, hy, locate_recording, hp, hr, hr']
        · cases r with
          | error f => simpa [prepare, hy, hp, hr] using .failed hy hi
          | ok output => simpa [prepare, hy, hp, hr] using .told hy hi

end

/-- Variables are read from an array of names with values, and later values win. -/
theorem readVariables_eq_ok {output : String} {env : Table String} :
    readVariables output = .ok env ↔
      ∃ vs, (Json.Shape.list Variable.shape).ofString (trimmed output) = .ok vs ∧
        env = .ofList (vs.map fun v => (v.key, v.value)) := by
  unfold readVariables
  cases (Json.Shape.list Variable.shape).ofString (trimmed output) with
  | error e => simp
  | ok vs => simp [eq_comm]

end Holotree

end Supervisor
