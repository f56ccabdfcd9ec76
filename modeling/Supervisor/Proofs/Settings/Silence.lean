import Supervisor.Proofs.Settings.Loading
/-!
# Nulls in layers

A null in a layer is to say nothing. It is dropped where the layers below have the object around it.
Where they have not, it stays in the merged layers with the object, and the settings that are read
from them show it.
-/
namespace Supervisor

/-! ## Where a null is heard

Fields that may be missing and are then nothing take null for the same. All others refuse it. A map
refuses null entries, and the initialization options keep whatever they have. -/

section
open Json

variable {name : String} {place : List String}

theorem ServerSettings.hears_iff : shape.hears name place = true ↔
    (place = [] ∧ name ∈ ["command", "args", "env", "readyTimeoutSecs", "stopTimeoutSecs"]) ∨
      place = ["env"] ∨ ["initializationOptions"] <+: place := by
  cases place with
  | nil =>
    have hfields : shape.hears name [] =
        ("command" == name && true || ("args" == name && true || ("env" == name && true ||
          ("cwd" == name && false || ("readyTimeoutSecs" == name && true ||
            ("stopTimeoutSecs" == name && true ||
              ("initializationOptions" == name && false || false))))))) := rfl
    simp [hfields, @eq_comm _ name]
  | cons n rest =>
    have hfields : shape.hears name (n :: rest) =
        ("command" == n && false || ("args" == n && false || ("env" == n && rest.isEmpty ||
          ("cwd" == n && false || ("readyTimeoutSecs" == n && false ||
            ("stopTimeoutSecs" == n && false ||
              ("initializationOptions" == n && true || false))))))) := rfl
    simp [hfields, @eq_comm _ n]

theorem EnvironmentSettings.hears_iff : shape.hears name place = true ↔
    (place = [] ∧ name ∈ ["enabled", "space", "timeoutSecs", "env"]) ∨ place = ["env"] := by
  cases place with
  | nil =>
    have hfields : shape.hears name [] =
        ("enabled" == name && true || ("rccPath" == name && false || ("robotYaml" == name && false ||
          ("space" == name && true || ("timeoutSecs" == name && true ||
            ("spacePrefix" == name && false || ("robocorpHome" == name && false ||
              ("cacheDir" == name && false || ("env" == name && true || false))))))))) := rfl
    simp [hfields, @eq_comm _ name]
  | cons n rest =>
    have hfields : shape.hears name (n :: rest) =
        ("enabled" == n && false || ("rccPath" == n && false || ("robotYaml" == n && false ||
          ("space" == n && false || ("timeoutSecs" == n && false ||
            ("spacePrefix" == n && false || ("robocorpHome" == n && false ||
              ("cacheDir" == n && false || ("env" == n && rest.isEmpty || false))))))))) := rfl
    simp [hfields, @eq_comm _ n]

theorem CompanionSettings.hears_iff : shape.hears name place = true ↔
    (place = [] ∧ name = "server") ∨
      ∃ rest, place = "server" :: rest ∧ ServerSettings.shape.hears name rest = true := by
  cases place with
  | nil =>
    have hfields : shape.hears name [] =
        ("server" == name && true || ("cacheDir" == name && false || false)) := rfl
    simp [hfields, @eq_comm _ name]
  | cons n rest =>
    have hfields : shape.hears name (n :: rest) =
        ("server" == n && ServerSettings.shape.hears name rest ||
          ("cacheDir" == n && false || false)) := rfl
    simp [hfields, @eq_comm _ n]

theorem Settings.hears_iff : shape.hears name place = true ↔
    (place = [] ∧ name ∈ ["version", "server", "environment"]) ∨
      (∃ rest, place = "server" :: rest ∧ ServerSettings.shape.hears name rest = true) ∨
      (∃ rest, place = "environment" :: rest ∧ EnvironmentSettings.shape.hears name rest = true) ∨
      ∃ rest, place = "companion" :: rest ∧ CompanionSettings.shape.hears name rest = true := by
  cases place with
  | nil =>
    have hfields : shape.hears name [] =
        ("version" == name && true || ("server" == name && true || ("environment" == name && true ||
          ("companion" == name && false || false)))) := rfl
    simp [hfields, @eq_comm _ name]
  | cons n rest =>
    have hfields : shape.hears name (n :: rest) =
        ("version" == n && false || ("server" == n && ServerSettings.shape.hears name rest ||
          ("environment" == n && EnvironmentSettings.shape.hears name rest ||
            ("companion" == n && CompanionSettings.shape.hears name rest || false)))) := rfl
    simp [hfields, @eq_comm _ n]

end

/-! ## Layers without a null -/

namespace Settings
open Json

variable {fs fs' : Files} {stores stores' : List Store} {below above : List Json} {layer : Json}
  {place : List String} {name : String}

/-- A layer without one of its nulls makes the same settings, or none as well, unless the null stays
in the merged layers, at a place where the shape of settings tells null from absence, and the layers
without it do make settings. -/
theorem loads_without_null_iff (h : layersOf fs stores = .ok (below ++ layer :: above))
    (h' : layersOf fs' stores' = .ok (below ++ layer.without name place :: above))
    (hnull : layer.at? (place ++ [name]) = some .null) :
    (∀ a, loadStores fs stores = .ok a ↔ loadStores fs' stores' = .ok a) ↔
      ¬ (NullStays below above place name ∧ shape.hears name place = true ∧
        ∃ a, loadStores fs' stores' = .ok a) := by
  have htidy := tidy_of_layersOf h
  have hbelow : ∀ lower ∈ below, lower.Tidy := fun l hl => htidy l (List.mem_append_left _ hl)
  have hlayer : layer.Tidy := htidy layer (by simp)
  have habove : ∀ upper ∈ above, upper.Tidy := fun u hu => htidy u (by simp [hu])
  simp only [loadStores_eq_ok h, loadStores_eq_ok h']
  by_cases hstays : NullStays below above place name
  · obtain ⟨hat, hwithout⟩ := mergeAll_of_nullStays hbelow hlayer habove hnull hstays
    have hcompares := shape.compares_without shape_regular (mergeAll_tidy htidy) hat
    rw [hwithout]
    simpa [hstays] using hcompares.same_iff
  · rw [mergeAll_of_not_nullStays hbelow hlayer habove hnull hstays]
    simp [hstays]

/-- A null for the command, in a section that no lower layer has. -/
theorem loads_without_null_iff_command :
    ¬ ∀ a, loadStores (treeOf "\x7b\"server\":\x7b\"command\":null\x7d\x7d" "") [⟨⟨"/lower"⟩⟩] = .ok a ↔
      loadStores (treeOf "\x7b\"server\":\x7b\x7d\x7d" "") [⟨⟨"/lower"⟩⟩] = .ok a := by
  have hj : Json.ofString "\x7b\"server\":\x7b\"command\":null\x7d\x7d" =
      .ok (.object [("server", .object [("command", .null)])]) := by cbv
  have hj' : Json.ofString "\x7b\"server\":\x7b\x7d\x7d" = .ok (.object [("server", .object [])]) := by
    cbv
  have h : layersOf (treeOf "\x7b\"server\":\x7b\"command\":null\x7d\x7d" "") [⟨⟨"/lower"⟩⟩] =
      .ok ([] ++ .object [("server", .object [("command", .null)])] :: []) :=
    layersOf_one (layer_of_lower hj)
  have h' : layersOf (treeOf "\x7b\"server\":\x7b\x7d\x7d" "") [⟨⟨"/lower"⟩⟩] =
      .ok ([] ++
        (Json.object [("server", .object [("command", .null)])]).without "command" ["server"] :: []) :=
    layersOf_one (layer_of_lower hj')
  rw [loads_without_null_iff h h' rfl, not_not]
  exact ⟨by decide, rfl, {}, (loadStores_eq_ok h').mpr rfl⟩

end Settings

end Supervisor
