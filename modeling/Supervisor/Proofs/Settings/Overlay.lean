import Supervisor.Proofs.Settings.Merging
import Supervisor.Proofs.Settings.Silence
/-!
# Settings of two layers

Two layers that make settings each alone make settings together, and these are the settings of the
lower layer with those that the upper one says anything about put over them.
-/
namespace Supervisor

/-! ## What the layers say together -/

section
open Json

variable {α : Type}

/-- Of two values the one of the upper layer, if the layer has something for the name. -/
def Json.pick (layer : Json) (name : String) (lower upper : α) : α :=
  if (layer.member name).isNull then lower else upper

/-- As `pick`; what both layers have is put together. -/
def Json.pickBoth (layer : Json) (name : String) (both : α → α → α) (lower upper : Option α) :
    Option α :=
  if (layer.member name).isNull then lower
  else match lower, upper with
    | some a, some b => some (both a b)
    | _, upper => upper

namespace ServerSettings

/-- What two layers say together; `layer` is the upper one. -/
def overlay (layer : Json) (lower upper : ServerSettings) : ServerSettings where
  command := layer.pick "command" lower.command upper.command
  args := layer.pick "args" lower.args upper.args
  env := lower.env.override upper.env
  workingDirectory := layer.pick "cwd" lower.workingDirectory upper.workingDirectory
  readyTimeoutSeconds :=
    layer.pick "readyTimeoutSecs" lower.readyTimeoutSeconds upper.readyTimeoutSeconds
  stopTimeoutSeconds :=
    layer.pick "stopTimeoutSecs" lower.stopTimeoutSeconds upper.stopTimeoutSeconds
  initializationOptions := layer.pickBoth "initializationOptions" Settings.merge
    lower.initializationOptions upper.initializationOptions

end ServerSettings

namespace EnvironmentSettings

def overlay (layer : Json) (lower upper : EnvironmentSettings) : EnvironmentSettings where
  enabled := layer.pick "enabled" lower.enabled upper.enabled
  rccPath := layer.pick "rccPath" lower.rccPath upper.rccPath
  robotYaml := layer.pick "robotYaml" lower.robotYaml upper.robotYaml
  space := layer.pick "space" lower.space upper.space
  timeoutSeconds := layer.pick "timeoutSecs" lower.timeoutSeconds upper.timeoutSeconds
  spacePrefix := layer.pick "spacePrefix" lower.spacePrefix upper.spacePrefix
  robocorpHome := layer.pick "robocorpHome" lower.robocorpHome upper.robocorpHome
  cacheDirectory := layer.pick "cacheDir" lower.cacheDirectory upper.cacheDirectory
  env := lower.env.override upper.env

end EnvironmentSettings

namespace CompanionSettings

def overlay (layer : Json) (lower upper : CompanionSettings) : CompanionSettings where
  server := .overlay (layer.member "server") lower.server upper.server
  cacheDirectory := layer.pick "cacheDir" lower.cacheDirectory upper.cacheDirectory

end CompanionSettings

namespace Settings

def overlay (layer : Json) (lower upper : Settings) : Settings where
  version := layer.pick "version" lower.version upper.version
  server := .overlay (layer.member "server") lower.server upper.server
  environment := .overlay (layer.member "environment") lower.environment upper.environment
  companion := layer.pickBoth "companion" (.overlay (layer.member "companion"))
    lower.companion upper.companion

end Settings

/-- An optional field whose values are not put together. -/
theorem Json.overlay_optional {s : Shape α}
    (hs : ∀ layer a b, s.overlay layer a b = if layer.isNull then a else b) (layer : Json)
    (name : String) (lower upper : Option α) :
    s.optional.overlay (layer.member name) lower upper = layer.pick name lower upper := by
  cases lower <;> cases upper <;> cases h : (layer.member name).isNull <;>
    simp [Shape.overlay, pick, h, hs]

theorem ServerSettings.shape_overlay (layer : Json) (lower upper : ServerSettings) :
    shape.overlay layer lower upper = overlay layer lower upper := by
  have hfields : shape.overlay layer lower upper =
      { overlay layer lower upper with
        workingDirectory := (Shape.optional Path.shape).overlay (layer.member "cwd")
          lower.workingDirectory upper.workingDirectory } := rfl
  rw [hfields, overlay_optional fun _ _ _ => rfl]
  rfl

theorem EnvironmentSettings.shape_overlay (layer : Json) (lower upper : EnvironmentSettings) :
    shape.overlay layer lower upper = overlay layer lower upper := by
  have hfields : shape.overlay layer lower upper =
      { overlay layer lower upper with
        rccPath := (Shape.optional Path.shape).overlay (layer.member "rccPath")
          lower.rccPath upper.rccPath
        robotYaml := (Shape.optional Path.shape).overlay (layer.member "robotYaml")
          lower.robotYaml upper.robotYaml
        spacePrefix := (Shape.optional Shape.text).overlay (layer.member "spacePrefix")
          lower.spacePrefix upper.spacePrefix
        robocorpHome := (Shape.optional Path.shape).overlay (layer.member "robocorpHome")
          lower.robocorpHome upper.robocorpHome
        cacheDirectory := (Shape.optional Path.shape).overlay (layer.member "cacheDir")
          lower.cacheDirectory upper.cacheDirectory } := rfl
  rw [hfields, overlay_optional fun _ _ _ => rfl, overlay_optional fun _ _ _ => rfl,
    overlay_optional fun _ _ _ => rfl, overlay_optional fun _ _ _ => rfl,
    overlay_optional fun _ _ _ => rfl]
  rfl

theorem CompanionSettings.shape_overlay (layer : Json) (lower upper : CompanionSettings) :
    shape.overlay layer lower upper = overlay layer lower upper := by
  have hfields : shape.overlay layer lower upper =
      { server := ServerSettings.shape.overlay (layer.member "server") lower.server upper.server
        cacheDirectory := (Shape.optional Path.shape).overlay (layer.member "cacheDir")
          lower.cacheDirectory upper.cacheDirectory } := rfl
  rw [hfields, ServerSettings.shape_overlay, overlay_optional fun _ _ _ => rfl]
  rfl

theorem Settings.shape_overlay (layer : Json) (lower upper : Settings) :
    shape.overlay layer lower upper = overlay layer lower upper := by
  have hfields : shape.overlay layer lower upper =
      { version := layer.pick "version" lower.version upper.version
        server := ServerSettings.shape.overlay (layer.member "server") lower.server upper.server
        environment := EnvironmentSettings.shape.overlay (layer.member "environment")
          lower.environment upper.environment
        companion := layer.pickBoth "companion"
          (CompanionSettings.shape.overlay (layer.member "companion"))
          lower.companion upper.companion } := rfl
  have hcompanion : CompanionSettings.shape.overlay (layer.member "companion") =
      CompanionSettings.overlay (layer.member "companion") := by
    funext lower upper
    exact CompanionSettings.shape_overlay _ lower upper
  rw [hfields, ServerSettings.shape_overlay, EnvironmentSettings.shape_overlay, hcompanion]
  rfl

end

namespace Settings
open Json

variable {fs : Files} {s₁ s₂ : Store} {layer x y : Json} {a b : Settings}

/-- Where the sections of a layer stand. -/
def sections : List (List String) :=
  [["server"], ["environment"], ["companion"], ["companion", "server"]]

/-- The layer and every section that it has are written as objects. -/
def InObjects (layer : Json) : Prop :=
  layer.isObject = true ∧
    ∀ place ∈ sections, (layer.at? place).all (fun j => j.isNull || j.isObject) = true

instance : Decidable (InObjects layer) := inferInstanceAs (Decidable (_ ∧ _))

theorem InObjects.at? (h : InObjects layer) {place : List String} (hmem : place ∈ sections) {j : Json}
    (hj : layer.at? place = some j) : j.isNull = true ∨ j.isObject = true := by
  simpa [hj] using h.2 place hmem

theorem InObjects.of_member (h : InObjects layer) {place : List String} {n : String} {j : Json}
    (hj : layer.at? place = some j) (hmem : place ++ [n] ∈ sections) (hn : j.member n ≠ .null) :
    (j.member n).isObject = true :=
  (h.at? hmem (at?_member hj hn)).resolve_left (by simp [isNull_eq_false hn])

theorem shape_inObjects (h : InObjects layer) : shape.InObjects layer := by
  have hserver : ∀ {j : Json}, j.isObject = true → ServerSettings.shape.InObjects j := fun hj =>
    ⟨hj, by simp [ServerSettings.fields, Fields.InObjects, Shape.InObjects, Path.shape]⟩
  have henvironment : ∀ {j : Json}, j.isObject = true → EnvironmentSettings.shape.InObjects j :=
    fun hj => ⟨hj, by simp [EnvironmentSettings.fields, Fields.InObjects, Shape.InObjects, Path.shape]⟩
  have htop : layer.at? [] = some layer := at?_nil layer
  refine ⟨h.1, fun _ => trivial, fun hn => hserver (h.of_member htop (by decide) hn),
    fun hn => henvironment (h.of_member htop (by decide) hn), fun hn => ?_, trivial⟩
  have hcompanion : layer.at? ["companion"] = some (layer.member "companion") := at?_member htop hn
  exact ⟨h.of_member htop (by decide) hn, fun hn' => hserver (h.of_member hcompanion (by decide) hn'),
    fun _ => trivial, trivial⟩

/-- A layer that can be read alone as the lowest one is an array, or leaves an object. -/
theorem lowest_cases (h : shape.readJson (merge (.object []) x) = .ok a) :
    (∃ items, x = .array items) ∨ ∃ xs, merge (.object []) x = .object xs := by
  cases x with
  | array items => exact .inl ⟨items, rfl⟩
  | object xs => exact .inr ⟨_, merge_objects [] xs⟩
  | null => exact .inr ⟨[], merge_null _⟩
  | _ => simp [merge, shape, Shape.readJson] at h

/-- A layer that can be read as the lowest one can be read over an array, unless a field refuses a
null that it has. -/
theorem exists_readJson_over_array {items : List Json} (hy : y.Tidy)
    (ha : shape.readJson (.array items) = .ok a)
    (hb : shape.readJson (merge (.object []) y) = .ok b) :
    (∃ c, shape.readJson (merge (.array items) y) = .ok c) ↔
      ¬ ∃ n ∈ ["version", "server", "environment"], y.member? n = some .null := by
  cases y with
  | object ys =>
    rw [merge_objects] at hb
    obtain ⟨row, hrow, -⟩ := (readJson_record_object
      (mergeMembers_ordered tidy_empty hy)).mp hb
    have hiff := fields.exists_membersJson_iff hy.ordered hrow
    have hread : (∃ c, shape.readJson (merge (.array items) (.object ys)) = .ok c) ↔
        ∃ row', fields.membersJson ys = .ok row' := by
      simp only [merge, shape, readJson_record_object hy.ordered]
      exact ⟨fun ⟨_, row', hrow', _⟩ => ⟨row', hrow'⟩, fun ⟨row', hrow'⟩ => ⟨_, row', hrow', rfl⟩⟩
    rw [hread, hiff]
    have hnames : ∀ n, fields.hears n [] = true ↔ n ∈ ["version", "server", "environment"] := by
      intro n
      have hn : fields.hears n [] = shape.hears n [] := rfl
      simp [hn, hears_iff]
    simp only [hnames, member?, not_exists, not_and]
  | null => simp [merge_null, ha, member?]
  | array items' => simpa [merge, member?] using ⟨b, hb⟩
  | _ => simp [merge, shape, Shape.readJson] at hb

theorem InObjects.lowest (h : InObjects layer) (hl : layer.Tidy) :
    InObjects (merge (.object []) layer) := by
  obtain ⟨ms, rfl⟩ := isObject_iff.mp h.1
  refine ⟨by simp [merge, isObject], fun place hmem => ?_⟩
  have hplace := h.2 place hmem
  cases place with
  | nil => simp [sections] at hmem
  | cons n rest =>
    rw [at?_object_cons] at hplace
    rw [merge_objects, at?_object_cons, find?_mergeMembers hl.ordered, Table.find?_nil]
    cases hv : Table.find? ms n with
    | none => simp
    | some v =>
      by_cases hnull : v = .null
      · simp [hnull]
      · rwa [overlaid_new hnull, ← hv]

theorem overlay_lowest (h : InObjects layer) (hl : layer.Tidy) (a b : Settings) :
    overlay (merge (.object []) layer) a b = overlay layer a b := by
  obtain ⟨ms, rfl⟩ := isObject_iff.mp h.1
  simp only [overlay, pick, pickBoth, member_merge_lowest hl]

theorem isSome_companion {ms : Table Json} (ho : ms.Ordered)
    (hb : shape.readJson (.object ms) = .ok b) :
    b.companion.isSome = true ↔ (Json.object ms).member "companion" ≠ .null := by
  obtain ⟨⟨version, server, environment, companion, ⟨⟩⟩, hrow, rfl⟩ :=
    (readJson_record_object ho).mp hb
  obtain ⟨-, hrow⟩ := Fields.membersJson_cons.mp hrow
  obtain ⟨-, hrow⟩ := Fields.membersJson_cons.mp hrow
  obtain ⟨-, hrow⟩ := Fields.membersJson_cons.mp hrow
  exact isSome_of_fieldJson (Fields.membersJson_cons.mp hrow).1

theorem isSome_companion_overlay (h : InObjects layer) (hl : layer.Tidy)
    (hb : shape.readJson (merge (.object []) layer) = .ok b) (a : Settings) :
    (overlay layer a b).companion.isSome = true ↔
      a.companion.isSome = true ∨ b.companion.isSome = true := by
  obtain ⟨ms, rfl⟩ := isObject_iff.mp h.1
  have hmember := member_merge_lowest hl "companion"
  rw [merge_objects] at hb hmember
  have hupper := isSome_companion (mergeMembers_ordered tidy_empty hl) hb
  rw [hmember] at hupper
  by_cases hnull : (Json.object ms).member "companion" = .null
  · have hnone : ¬ b.companion.isSome = true := fun hs => hupper.mp hs hnull
    simp [overlay, pickBoth, hnull, isNull, hnone]
  · obtain ⟨upper, hb⟩ := Option.isSome_iff_exists.mp (hupper.mpr hnull)
    cases ha : a.companion <;> simp [overlay, pickBoth, isNull_eq_false hnull, ha, hb]

/-- Two layers that can be loaded each alone can be loaded together, unless the lower one is written
as an array and the upper one has null for a field that refuses it. If all sections are written as
objects, the settings are put together field by field. -/
theorem loadStores_two_layers (hx : s₁.loadOptional fs .any fileName = .ok (some x))
    (hy : s₂.loadOptional fs .any fileName = .ok (some y)) (ha : loadStores fs [s₁] = .ok a)
    (hb : loadStores fs [s₂] = .ok b) :
    ((∃ c, loadStores fs [s₁, s₂] = .ok c) ↔
      ¬ ((∃ items, x = .array items) ∧
        ∃ n ∈ ["version", "server", "environment"], y.member? n = some .null)) ∧
    (InObjects x → InObjects y →
      loadStores fs [s₁, s₂] = .ok (overlay y a b) ∧
        ((overlay y a b).companion.isSome = true ↔
          a.companion.isSome = true ∨ b.companion.isSome = true)) := by
  have htx := Store.tidy_of_loadOptional hx
  have hty := Store.tidy_of_loadOptional hy
  have hlayers : layersOf fs [s₁, s₂] = .ok [x, y] := by
    simp [layersOf, hx, hy, bind, Except.bind, pure, Except.pure]
  have hone : ∀ j, mergeAll [j] = merge (.object []) j := fun _ => rfl
  have hmerged : mergeAll [x, y] = merge (merge (.object []) x) y := rfl
  rw [loadStores_eq_ok (layersOf_one hx), hone] at ha
  rw [loadStores_eq_ok (layersOf_one hy), hone] at hb
  simp only [loadStores_eq_ok hlayers, hmerged]
  by_cases harray : ∃ items, x = .array items
  · obtain ⟨items, rfl⟩ := harray
    have hx' : merge (.object []) (.array items) = .array items := by simp [merge]
    rw [hx'] at ha ⊢
    refine ⟨?_, fun h => by simp [InObjects, isObject] at h⟩
    simpa using exists_readJson_over_array hty ha hb
  · obtain ⟨xs, hxs⟩ := (lowest_cases ha).resolve_left harray
    have htxs := merge_tidy tidy_empty htx
    have htys := merge_tidy tidy_empty hty
    rw [hxs] at ha htxs ⊢
    rw [← merge_merge_lowest htxs hty]
    obtain ⟨c, hc, hoverlay⟩ := shape.readJson_merge shape_regular htxs htys ha hb
    refine ⟨⟨fun _ h => harray h.1, fun _ => ⟨c, hc⟩⟩, fun hxo hyo => ⟨?_, ?_⟩⟩
    · have hinx : shape.InObjects (.object xs) := hxs ▸ shape_inObjects (hxo.lowest htx)
      have hiny := shape_inObjects (hyo.lowest hty)
      rwa [← overlay_lowest hyo hty, ← shape_overlay, ← hoverlay hinx hiny]
    · exact isSome_companion_overlay hyo hty hb a

/-- An array below a null, and two sections that are put together. -/
theorem loadStores_two_layers_both :
    (¬ ∃ c, loadStores (treeOf "[]" "\x7b\"version\":null\x7d") [⟨⟨"/lower"⟩⟩, ⟨⟨"/upper"⟩⟩] = .ok c) ∧
    loadStores (treeOf "\x7b\"server\":\x7b\"args\":[\"a\"]\x7d\x7d" "\x7b\"server\":\x7b\"command\":\"b\"\x7d\x7d")
      [⟨⟨"/lower"⟩⟩, ⟨⟨"/upper"⟩⟩] = .ok { server := { command := "b", args := ["a"] } } := by
  constructor
  · have hx := @layer_of_lower _ "\x7b\"version\":null\x7d" (.array []) (by cbv : Json.ofString "[]" = _)
    have hy := @layer_of_upper "[]" _ (.object [("version", .null)])
      (by cbv : Json.ofString "\x7b\"version\":null\x7d" = _)
    have ha := (@loadStores_eq_ok _ _ _ (layersOf_one hx) {}).mpr rfl
    have hb := (@loadStores_eq_ok _ _ _ (layersOf_one hy) {}).mpr rfl
    rw [(loadStores_two_layers hx hy ha hb).1, not_not]
    exact ⟨⟨[], rfl⟩, "version", by simp, rfl⟩
  · have hx := @layer_of_lower _ "\x7b\"server\":\x7b\"command\":\"b\"\x7d\x7d"
      (.object [("server", .object [("args", .array [.string "a"])])])
      (by cbv : Json.ofString "\x7b\"server\":\x7b\"args\":[\"a\"]\x7d\x7d" = _)
    have hy := @layer_of_upper "\x7b\"server\":\x7b\"args\":[\"a\"]\x7d\x7d" _
      (.object [("server", .object [("command", .string "b")])])
      (by cbv : Json.ofString "\x7b\"server\":\x7b\"command\":\"b\"\x7d\x7d" = _)
    have ha := (@loadStores_eq_ok _ _ _ (layersOf_one hx) { server := { args := ["a"] } }).mpr rfl
    have hb := (@loadStores_eq_ok _ _ _ (layersOf_one hy) { server := { command := "b" } }).mpr rfl
    exact ((loadStores_two_layers hx hy ha hb).2 (by decide) (by decide)).1

end Settings

end Supervisor
