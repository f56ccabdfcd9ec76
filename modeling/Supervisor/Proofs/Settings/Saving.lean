import Supervisor.Proofs.Files.Writing
import Supervisor.Proofs.Json.Origin
import Supervisor.Proofs.Settings.Loading
/-!
# Saving settings

Settings that were loaded are what is loaded again from the file in which they were saved, and saving
them again changes nothing. Doubles are left out, and so are values nested deeper than a reader goes.
-/
namespace Supervisor

open Json (Every Sound Whole)

/-! ## Where settings are saved -/

section
variable {base name : Path}

theorem Path.getLast?_join (hne : name.text ≠ "") (base : Path) :
    (base.join name).text.toList.getLast? = name.text.toList.getLast? := by
  have hlast : ∀ before : String,
      (before ++ name.text).toList.getLast? = name.text.toList.getLast? := by
    intro before
    have hchars : name.text.toList ≠ [] := by simpa using hne
    rw [String.toList_append, List.getLast?_append_of_ne_nil _ hchars]
  unfold join
  split_ifs
  · rfl
  · exact hlast _
  · exact hlast _

theorem Files.endsWithSlash_join (hne : name.text ≠ "") (hname : '/' ∉ name.text.toList) :
    endsWithSlash (base.join name) = false := by
  rw [endsWithSlash, Path.getLast?_join hne]
  refine beq_eq_false_iff_ne.mpr fun h => hname ?_
  exact List.mem_of_getLast? h

theorem Files.names_join_ne_nil (hne : name.text ≠ "") (hname : '/' ∉ name.text.toList) :
    names (base.join name) ≠ [] := by
  obtain ⟨before, h⟩ := Path.exists_segments_join base hname
  simp [names, h, hne]

end

namespace Store

variable {s : Store} {fs fs' : Files} {file root : Path} {j : Json}

theorem save_eq_ok : s.save fs file j = (.ok (), fs') ↔
    ∃ made, s.ensureDirectory fs = .ok made ∧ made.write (s.path file) j.pretty = .ok fs' := by
  unfold save
  cases s.ensureDirectory fs with
  | error f => simp
  | ok made => cases hwrite : made.write (s.path file) j.pretty <;> simp [hwrite]

theorem fileExists_of_ensureDirectory (hslash : Files.endsWithSlash s.directory = false)
    (hnames : Files.names s.directory ≠ []) (h : s.ensureDirectory fs = .ok fs') :
    fs'.fileExists s.directory = true := by
  unfold ensureDirectory at h
  split_ifs at h with hthere
  · cases h
    exact hthere
  · split at h
    · next made hmade =>
      cases h
      exact Files.fileExists_of_makeDirectories hmade hslash hnames
    · cases h

/-- What was saved is in the file, and saving it again changes nothing. -/
theorem save_again (hslash : Files.endsWithSlash s.directory = false)
    (hnames : Files.names s.directory ≠ []) (hfile : Files.names (s.path file) ≠ [])
    (h : s.save fs file j = (.ok (), fs')) :
    fs'.read (s.path file) = .ok j.pretty ∧ s.save fs' file j = (.ok (), fs') := by
  obtain ⟨made, hmade, hwrite⟩ := save_eq_ok.mp h
  have hthere := Files.fileExists_of_write hwrite (fileExists_of_ensureDirectory hslash hnames hmade)
  refine ⟨Files.read_of_write hwrite hfile, save_eq_ok.mpr ⟨fs', ?_, Files.write_again hwrite hfile⟩⟩
  rw [ensureDirectory, if_pos hthere]

end Store

/-! ## The shape of settings -/

namespace Json

variable {α ρ : Type} {s : Shape α} {rest : Fields ρ} {n : String}

/-- A field that is left out where it has the value that it has when absent. -/
theorem lawful_default {a : α} {omitted : α → Bool} (hs : s.Lawful) (ha : s.Fits a)
    (homitted : ∀ b, omitted b = true → b = a) (hrest : rest.Lawful) :
    (Fields.cons n (.default a) omitted s rest).Lawful := by
  refine ⟨hs, fun b hb => ?_, fun b hb => ?_, hrest⟩
  · rw [homitted b hb]
    rfl
  · rwa [← Except.ok.inj hb]

theorem lawful_kept {a : α} (hs : s.Lawful) (ha : s.Fits a) (hrest : rest.Lawful) :
    (Fields.cons n (.default a) kept s rest).Lawful :=
  lawful_default hs ha (fun _ h => by cases h) hrest

theorem lawful_optional (hs : s.Lawful) (hrest : rest.Lawful) :
    (Fields.cons n (.default none) Option.isNone s.optional rest).Lawful :=
  lawful_default hs (fun _ h => by cases h) (fun _ h => Option.isNone_iff_eq_none.mp h) hrest

theorem lawful_table (hs : s.Lawful) (hrest : rest.Lawful) :
    (Fields.cons n (.default []) List.isEmpty s.table rest).Lawful :=
  lawful_default hs allEntries_nil (fun _ h => List.isEmpty_iff.mp h) hrest

/-- Data that stand for an empty object fit. -/
theorem fits_of_empty {a : α} (hs : s.Lawful) (h : s.readJson (.object []) = .ok a) : s.Fits a :=
  s.fits_of_readJson hs every_empty h

end Json

theorem Path.shape_lawful : shape.Lawful := by
  intro t p h
  cases h
  rfl

theorem ServerSettings.shape_lawful : shape.Lawful := by
  refine ⟨?_, by decide, fun _ => rfl⟩
  refine Json.lawful_kept trivial trivial ?_
  refine Json.lawful_kept trivial (List.forall_mem_nil _) ?_
  refine Json.lawful_kept trivial Json.allEntries_nil ?_
  refine Json.lawful_optional Path.shape_lawful ?_
  refine Json.lawful_kept (le_refl 64) (by simp [Json.Shape.Fits]) ?_
  refine Json.lawful_kept (le_refl 64) (by simp [Json.Shape.Fits]) ?_
  exact Json.lawful_optional trivial trivial

theorem EnvironmentSettings.shape_lawful : shape.Lawful := by
  refine ⟨?_, by decide, fun _ => rfl⟩
  refine Json.lawful_kept trivial trivial ?_
  refine Json.lawful_optional Path.shape_lawful ?_
  refine Json.lawful_optional Path.shape_lawful ?_
  refine Json.lawful_kept trivial trivial ?_
  refine Json.lawful_kept (le_refl 64) (by simp [Json.Shape.Fits]) ?_
  refine Json.lawful_optional trivial ?_
  refine Json.lawful_optional Path.shape_lawful ?_
  refine Json.lawful_optional Path.shape_lawful ?_
  exact Json.lawful_table trivial trivial

theorem CompanionSettings.shape_lawful : shape.Lawful := by
  refine ⟨?_, by decide, fun _ => rfl⟩
  refine Json.lawful_kept ServerSettings.shape_lawful
    (Json.fits_of_empty ServerSettings.shape_lawful rfl) ?_
  exact Json.lawful_optional Path.shape_lawful trivial

theorem Settings.shape_lawful : shape.Lawful := by
  refine ⟨?_, by decide, fun _ => rfl⟩
  refine Json.lawful_kept (by simp [Json.Shape.Lawful]) (by simp [Json.Shape.Fits]) ?_
  refine Json.lawful_kept ServerSettings.shape_lawful
    (Json.fits_of_empty ServerSettings.shape_lawful rfl) ?_
  refine Json.lawful_kept EnvironmentSettings.shape_lawful
    (Json.fits_of_empty EnvironmentSettings.shape_lawful rfl) ?_
  exact Json.lawful_optional CompanionSettings.shape_lawful trivial

namespace Settings

variable {fs fs' : Files} {stores : List Store} {p root : Path} {s again : Settings}

/-! ## What is loaded -/

/-- The settings come from a file of JSON, or from the layers of stores. -/
inductive Loaded (s : Settings) : Prop
  | file (fs : Files) (p : Path) (hp : p.hasExtension "toml" = false) (h : loadFile fs p = .ok s)
  | layers (fs : Files) (stores : List Store) (h : loadStores fs stores = .ok s)

theorem loadFile_eq_ok (hp : p.hasExtension "toml" = false) : loadFile fs p = .ok s ↔
    ∃ text, fs.read p = .ok text ∧ shape.ofString text = .ok s := by
  unfold loadFile Files.load
  cases fs.read p with
  | error e => simp
  | ok text => cases h : shape.ofString text <;> simp [hp, h]

theorem fits_of_loadStores (h : loadStores fs stores = .ok s) : shape.Fits s := by
  obtain ⟨layers, hlayers, hs⟩ := bind_eq_ok.mp h
  have hsound : ∀ layer ∈ layers, layer.Every Sound := by
    intro layer hmem
    obtain ⟨text, hj⟩ := exists_text_of_layersOf hlayers layer hmem
    exact Json.ofString_sound hj
  have hmerged := foldl_merge_keeps Json.hereditary_sound Json.every_empty hsound
  exact shape.fits_of_readJson shape_lawful hmerged (ofLayers_eq_ok.mp hs)

theorem Loaded.fits (h : s.Loaded) : shape.Fits s := by
  cases h with
  | file fs p hp h =>
    obtain ⟨text, -, hs⟩ := (loadFile_eq_ok hp).mp h
    exact shape.fits_of_readOutline shape_lawful (Json.Document.finish_eq_ok.mp hs).1
  | layers fs stores h => exact fits_of_loadStores h

/-! ## What is written -/

/-- The initialization options of both servers, where they are set. -/
def options (s : Settings) : List Json :=
  s.server.initializationOptions.toList ++
    (s.companion.bind (·.server.initializationOptions)).toList

theorem flatMap_nothing {α β : Type} (xs : List α) : xs.flatMap (fun _ => ([] : List β)) = [] := by
  simp

theorem free_server (server : ServerSettings) :
    ServerSettings.shape.free server = server.initializationOptions.toList := by
  cases h : server.initializationOptions <;>
    simp [ServerSettings.shape, ServerSettings.fields, Path.shape, Json.Shape.free, Json.Fields.free,
      flatMap_nothing, h]

theorem free_environment (environment : EnvironmentSettings) :
    EnvironmentSettings.shape.free environment = [] := by
  simp [EnvironmentSettings.shape, EnvironmentSettings.fields, Path.shape, Json.Shape.free,
    Json.Fields.free]

theorem free_companion (companion : CompanionSettings) :
    CompanionSettings.shape.free companion = companion.server.initializationOptions.toList := by
  simp [CompanionSettings.shape, CompanionSettings.fields, Path.shape, Json.Shape.free,
    Json.Fields.free, flatMap_nothing, free_server]

/-- Nothing in the settings is open but the initialization options. -/
theorem free_eq_options (s : Settings) : shape.free s = s.options := by
  cases h : s.companion <;>
    simp [shape, fields, options, Json.Shape.free, Json.Fields.free, free_server, free_environment,
      free_companion, h]

theorem toJson_whole (h : ∀ j ∈ s.options, j.Every Whole) : s.toJson.Every Whole :=
  shape.write_whole (by rwa [free_eq_options])

/-! ## Loading what was saved -/

/-- The file in which the settings of a project are saved. -/
def savedIn (root : Path) : Path := (Store.ofProject root).path fileName

theorem saveProject_eq_ok (h : s.saveProject fs root = (.ok (), fs')) :
    fs'.read (savedIn root) = .ok s.toJson.pretty ∧ s.saveProject fs' root = (.ok (), fs') := by
  refine Store.save_again ?_ ?_ ?_ h
  · exact Files.endsWithSlash_join (by decide) (by decide)
  · exact Files.names_join_ne_nil (by decide) (by decide)
  · exact Files.names_join_ne_nil (by decide) (by decide)

/-- Whether settings can be saved depends on the files alone, and not on what is in the settings. -/
theorem exists_saveProject (h : s.saveProject fs root = (.ok (), fs')) (other : Settings) :
    ∃ gs, other.saveProject fs root = (.ok (), gs) := by
  obtain ⟨made, hmade, hwrite⟩ := Store.save_eq_ok.mp h
  obtain ⟨gs, hgs⟩ := Files.exists_write hwrite other.toJson.pretty
  exact ⟨gs, Store.save_eq_ok.mpr ⟨made, hmade, hgs⟩⟩

theorem loadFile_saved (hs : shape.Fits s) (hw : s.toJson.Every Whole)
    (hd : s.toJson.nesting < Json.depthLimit)
    (hread : fs.read (savedIn root) = .ok s.toJson.pretty) :
    loadFile fs (savedIn root) = .ok s :=
  (loadFile_eq_ok (Store.file_not_toml _)).mpr
    ⟨_, hread, shape.ofString_write shape_lawful hs hw hd⟩

theorem loadStores_saved (hs : shape.Fits s) (hw : s.toJson.Every Whole)
    (hd : s.toJson.nesting < Json.depthLimit)
    (hread : fs.read (savedIn root) = .ok s.toJson.pretty) :
    loadStores fs [Store.ofProject root] = .ok s := by
  have hfitting := shape.write_fitting shape_lawful hs
  have hj : Json.ofString s.toJson.pretty = .ok s.toJson.sorted := Json.ofString_pretty hfitting hw hd
  have hlayers := layersOf_one (Store.loadOptional_of_read hread hj)
  have hvalue : shape.readJson s.toJson.sorted = .ok s :=
    shape.readJson_of_readOutline (shape.readOutline_write shape_lawful hs hw hd)
      (Json.Outline.readAny_outline hfitting hw hd)
  refine (loadStores_eq_ok hlayers).mpr ?_
  exact readJson_lowest shape_regular.1 (Json.ofString_tidy hj) hvalue

/-- Settings that were loaded are loaded again from the file in which they are saved, on its own as
well as from the store of the project. Saving what was loaded again leaves all files as they are, and
writes the same text wherever it is saved. -/
theorem save_then_load (hs : s.Loaded) (hw : ∀ j ∈ s.options, j.Every Whole)
    (hd : s.toJson.nesting ≤ 100) (hsave : s.saveProject fs root = (.ok (), fs')) :
    loadFile fs' (savedIn root) = .ok s ∧ loadStores fs' [Store.ofProject root] = .ok s ∧
      ∀ again, loadFile fs' (savedIn root) = .ok again ∨
          loadStores fs' [Store.ofProject root] = .ok again →
        again.saveProject fs' root = (.ok (), fs') ∧
        ∀ gs gs' other, again.saveProject gs other = (.ok (), gs') →
          gs'.read (savedIn other) = fs'.read (savedIn root) := by
  have hfits := hs.fits
  have hwhole := toJson_whole hw
  have hdepth : s.toJson.nesting < Json.depthLimit := lt_of_le_of_lt hd (by decide)
  obtain ⟨hread, hagain⟩ := saveProject_eq_ok hsave
  have hfile := loadFile_saved hfits hwhole hdepth hread
  have hstore := loadStores_saved hfits hwhole hdepth hread
  refine ⟨hfile, hstore, fun again h => ?_⟩
  obtain rfl : s = again := by
    rcases h with h | h
    · exact Except.ok.inj (hfile.symm.trans h)
    · exact Except.ok.inj (hstore.symm.trans h)
  refine ⟨hagain, fun gs gs' other hother => ?_⟩
  rw [(saveProject_eq_ok hother).1, hread]

/-- Settings with options, and a text of them with the options in another order. -/
def sample : Settings where
  server :=
    { initializationOptions := some (.object [("a", .array [.null]), ("b", .string "\"\u0001")]) }

def sampleText : String :=
  "\x7b\"server\":\x7b\"initializationOptions\":\x7b\"b\":\"\\\"\\u0001\",\"a\":[null]\x7d\x7d\x7d"

def savedSample : Files := (sample.saveProject (treeOf sampleText "") ⟨"/lower"⟩).2

theorem save_then_load_sample :
    loadFile (treeOf sampleText "") ⟨"/lower/config.json"⟩ = .ok sample ∧
      loadFile savedSample (savedIn ⟨"/lower"⟩) = .ok sample ∧
      loadStores savedSample [Store.ofProject ⟨"/lower"⟩] = .ok sample := by
  have hread : ∀ text, (treeOf text "").read ⟨"/lower/config.json"⟩ = .ok text := fun _ => rfl
  have hjson : Path.hasExtension ⟨"/lower/config.json"⟩ "toml" = false :=
    Store.file_not_toml ⟨⟨"/lower"⟩⟩
  have hshape : shape.ofString sampleText = .ok sample := by cbv
  have hload : loadFile (treeOf sampleText "") ⟨"/lower/config.json"⟩ = .ok sample :=
    (loadFile_eq_ok hjson).mpr ⟨_, hread _, hshape⟩
  have hwhole : ∀ j ∈ sample.options, j.Every Whole := by
    simp [sample, options, Every, Json.EveryMember, Json.EveryItem, Whole]
  have hdepth : sample.toJson.nesting ≤ 100 := by cbv
  have hsave : sample.saveProject (treeOf sampleText "") ⟨"/lower"⟩ = (.ok (), savedSample) := rfl
  obtain ⟨hfile, hstore, -⟩ := save_then_load (.file _ _ hjson hload) hwhole hdepth hsave
  exact ⟨hload, hfile, hstore⟩

end Settings

end Supervisor
