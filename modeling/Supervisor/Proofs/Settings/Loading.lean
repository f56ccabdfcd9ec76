import Supervisor.Settings.Store
import Supervisor.Proofs.Json.Absence
import Supervisor.Proofs.Json.Agreement
import Supervisor.Proofs.Settings.Layering
/-!
# Loading settings

The file of a store is read as JSON, whatever the directory is called. A text that can be read as
settings gives the same settings as the only layer of a store.
-/
namespace Supervisor

/-! ## The file of a store -/

namespace Path

theorem componentsOf_append (as bs : List String) :
    componentsOf (as ++ bs) = componentsOf as ++ componentsOf bs := by
  induction as with
  | nil => rfl
  | cons s rest ih =>
    simp only [List.cons_append, componentsOf, ih]
    split_ifs <;> rfl

/-- The last segment is the name of the file, if it is a name at all. -/
theorem fileName?_of_segments {p : Path} {before : List String} {s : String}
    (hp : p.segments = before ++ [s]) (hs : componentsOf [s] = [.name s]) : p.fileName? = some s := by
  have hlast : ∃ cs, p.components = cs ++ [.name s] := by
    unfold components
    rw [hp]
    split_ifs
    · exact ⟨.root :: componentsOf before, by simp [componentsOf_append, hs]⟩
    · split
      · next rest hrest =>
        cases before with
        | nil =>
          obtain ⟨rfl, rfl⟩ : s = "." ∧ [] = rest := by simpa using hrest
          simp [componentsOf] at hs
        | cons b before =>
          obtain ⟨rfl, rfl⟩ : b = "." ∧ before ++ [s] = rest := by simpa using hrest
          exact ⟨.here :: componentsOf before, by simp [componentsOf_append, hs]⟩
      · exact ⟨componentsOf before, by simp [componentsOf_append, hs]⟩
  obtain ⟨cs, hcs⟩ := hlast
  simp [fileName?, hcs]

theorem exists_segments_join (base : Path) {name : Path} (hname : '/' ∉ name.text.toList) :
    ∃ before, (base.join name).segments = before ++ [name.text] := by
  have hsplit : name.text.toList.splitOn '/' = [name.text.toList] := List.splitOn_eq_singleton hname
  have habsolute : name.isAbsolute = false := by
    cases h : name.text.toList with
    | nil => simp [isAbsolute, h]
    | cons c cs =>
      have hc : c ≠ '/' := by
        rintro rfl
        simp [h] at hname
      simp [isAbsolute, h, hc]
  unfold join segments
  rw [habsolute]
  simp only [Bool.false_eq_true, if_false]
  split_ifs with hend
  · rcases Bool.or_eq_true_iff.mp hend with hslash | hempty
    · obtain ⟨l, hl⟩ : ∃ l, base.text.toList = l ++ ['/'] :=
        List.getLast?_eq_some_iff.mp (by simpa using hslash)
      refine ⟨(l.splitOn '/').map String.ofList, ?_⟩
      simp [hl, List.splitOn_append_cons_self, hsplit]
    · refine ⟨[], ?_⟩
      simp [eq_of_beq hempty, hsplit]
  · refine ⟨(base.text.toList.splitOn '/').map String.ofList, ?_⟩
    simp [List.splitOn_append_cons_self, hsplit]

end Path

namespace Store

theorem file_not_toml (s : Store) : (s.path Settings.fileName).hasExtension "toml" = false := by
  obtain ⟨before, h⟩ := Path.exists_segments_join s.directory
    (by decide : '/' ∉ Settings.fileName.text.toList)
  have hname : (s.path Settings.fileName).fileName? = some "config.json" :=
    Path.fileName?_of_segments h (by decide)
  have hextension : (s.path Settings.fileName).extension? = some "json" := by
    simp only [Path.extension?, hname]
    decide
  have hlower : Path.lower "json" ≠ Path.lower "toml" := by cbv
  simp [Path.hasExtension, hextension, hlower]

variable {s : Store} {fs : Files} {text : String} {j : Json}

theorem load_any_eq_ok : s.load fs .any Settings.fileName = .ok j ↔
    ∃ text, fs.read (s.path Settings.fileName) = .ok text ∧ Json.ofString text = .ok j := by
  unfold load Files.load
  cases fs.read (s.path Settings.fileName) with
  | error e => simp
  | ok text =>
    have hany : Json.Shape.any.ofString text = Json.ofString text := by
      simp [Json.Shape.ofString, Json.ofString, Json.Document.read, Json.Shape.readOutline]
    simp only [s.file_not_toml, Bool.false_eq_true, if_false, hany]
    cases h : Json.ofString text <;> simp [h]

/-- The layer of a store that has the file. -/
theorem loadOptional_of_read (hread : fs.read (s.path Settings.fileName) = .ok text)
    (hj : Json.ofString text = .ok j) :
    s.loadOptional fs .any Settings.fileName = .ok (some j) := by
  have hthere : s.hasFile fs Settings.fileName = true := by
    obtain ⟨n, hn, -⟩ := bind_eq_ok.mp hread
    simp [hasFile, Files.fileExists, hn, Except.toOption]
  simp [loadOptional, hthere, load_any_eq_ok.mpr ⟨text, hread, hj⟩, Except.map]

theorem exists_text_of_loadOptional (h : s.loadOptional fs .any Settings.fileName = .ok (some j)) :
    ∃ text, Json.ofString text = .ok j := by
  unfold loadOptional at h
  split_ifs at h
  · obtain ⟨j', hload, rfl⟩ : ∃ j', s.load fs .any Settings.fileName = .ok j' ∧ j' = j := by
      obtain ⟨j', hj', heq⟩ := map_eq_ok.mp h
      exact ⟨j', hj', Option.some.inj heq⟩
    obtain ⟨text, -, hj⟩ := load_any_eq_ok.mp hload
    exact ⟨text, hj⟩
  · cases h

theorem tidy_of_loadOptional (h : s.loadOptional fs .any Settings.fileName = .ok (some j)) :
    j.Tidy := by
  obtain ⟨text, hj⟩ := exists_text_of_loadOptional h
  exact Json.ofString_tidy hj

end Store

/-! ## The shape of settings -/

section
open Json

variable {α : Type} {s : Shape α} {a : α}

theorem Json.absentAs_of_refused (hnull : s.takesNull = false) (ha : s.Neutral a) (name : String) :
    s.AbsentAs (.default a) name := by
  refine ⟨fun b hb => ?_, fun b hb => ?_⟩
  · obtain rfl : a = b := by simpa [Absent.inObject] using hb
    exact ha
  · simp [Shape.takesNull, hb, Except.isOk, Except.toBool] at hnull

theorem Json.absentAs_none (s : Shape α) (name : String) :
    s.optional.AbsentAs (.default none) name := by
  refine ⟨fun b hb => ?_, fun b hb => hb⟩
  obtain rfl : none = b := by simpa [Absent.inObject] using hb
  rfl

end

theorem ServerSettings.shape_regular : shape.Regular := by
  refine ⟨⟨trivial, ?_, trivial, ?_, Json.scalar_text, ?_, trivial, ?_, trivial, ?_, trivial, ?_,
    trivial, ?_, trivial⟩, fun _ => rfl, fun _ => rfl⟩
  all_goals first
    | exact Json.absentAs_none _ _
    | refine Json.absentAs_of_refused ?_ ?_ _ <;> trivial

theorem EnvironmentSettings.shape_regular : shape.Regular := by
  refine ⟨⟨trivial, ?_, trivial, ?_, trivial, ?_, trivial, ?_, trivial, ?_, trivial, ?_, trivial, ?_,
    trivial, ?_, Json.scalar_text, ?_, trivial⟩, fun _ => rfl, fun _ => rfl⟩
  all_goals first
    | exact Json.absentAs_none _ _
    | refine Json.absentAs_of_refused ?_ ?_ _ <;> trivial

theorem CompanionSettings.shape_regular : shape.Regular := by
  refine ⟨⟨ServerSettings.shape_regular, ?_, trivial, Json.absentAs_none _ _, trivial⟩,
    fun _ => rfl, fun _ => rfl⟩
  refine Json.absentAs_of_refused ?_ ?_ _ <;> rfl

theorem Settings.shape_regular : shape.Regular := by
  refine ⟨⟨trivial, ?_, ServerSettings.shape_regular, ?_, EnvironmentSettings.shape_regular, ?_,
    CompanionSettings.shape_regular, Json.absentAs_none _ _, trivial⟩, fun _ => rfl, fun _ => rfl⟩
  all_goals refine Json.absentAs_of_refused ?_ ?_ _ <;> trivial

namespace Settings
open Json (Tidy)

variable {fs fs' : Files} {s : Store} {stores : List Store} {layers : List Json}

theorem layersOf_one {j : Json} (h : s.loadOptional fs .any fileName = .ok (some j)) :
    layersOf fs [s] = .ok [j] := by
  simp [layersOf, h, bind, Except.bind, pure, Except.pure]

/-- Every layer was read from a text. -/
theorem exists_text_of_layersOf (h : layersOf fs stores = .ok layers) :
    ∀ layer ∈ layers, ∃ text, Json.ofString text = .ok layer := by
  induction stores generalizing layers with
  | nil =>
    cases h
    simp
  | cons s rest ih =>
    obtain ⟨layer?, hlayer, h⟩ := bind_eq_ok.mp h
    obtain ⟨others, hothers, h⟩ := bind_eq_ok.mp h
    cases h
    intro layer hmem
    rcases List.mem_append.mp hmem with hmem | hmem
    · rw [Option.mem_toList] at hmem
      exact Store.exists_text_of_loadOptional (hmem ▸ hlayer)
    · exact ih hothers layer hmem

theorem tidy_of_layersOf (h : layersOf fs stores = .ok layers) : ∀ layer ∈ layers, layer.Tidy := by
  intro layer hmem
  obtain ⟨text, hj⟩ := exists_text_of_layersOf h layer hmem
  exact Json.ofString_tidy hj

theorem ofLayers_eq_ok {a : Settings} :
    ofLayers layers = .ok a ↔ shape.readJson (mergeAll layers) = .ok a := by
  unfold ofLayers
  cases shape.readJson (mergeAll layers) <;> simp

theorem loadStores_eq_ok (h : layersOf fs stores = .ok layers) {a : Settings} :
    loadStores fs stores = .ok a ↔ shape.readJson (mergeAll layers) = .ok a := by
  rw [loadStores, h]
  exact ofLayers_eq_ok

/-- The lowest layer is put over an empty object. This drops the nulls on its top level and nothing
else, so it changes nothing of what a record reads. -/
theorem readJson_lowest {α ρ : Type} {name : String} {fields : Json.Fields ρ} {make : ρ → α}
    {parts : α → ρ} (hf : fields.Regular) {j : Json} (hj : j.Tidy) {a : α}
    (h : (Json.Shape.record name fields make parts).readJson j = .ok a) :
    (Json.Shape.record name fields make parts).readJson (merge (.object []) j) = .ok a := by
  cases j with
  | array items => simpa [merge] using h
  | object ms =>
    obtain ⟨row, hrow, rfl⟩ := (Json.readJson_record_object hj.ordered).mp h
    rw [merge_objects]
    refine (Json.readJson_record_object (mergeMembers_ordered Json.tidy_empty hj)).mpr
      ⟨row, Json.Fields.membersJson_of_dropped hf hrow fun n => ?_, rfl⟩
    rw [find?_mergeMembers hj.ordered, Table.find?_nil]
    cases hn : Table.find? ms n with
    | none => exact .inl rfl
    | some v =>
      cases v with
      | null => exact .inr ⟨rfl, rfl⟩
      | _ => exact .inl rfl
  | _ => simp [Json.Shape.readJson] at h

/-- A text that is read as a file of settings makes the same settings as the only layer. -/
theorem loadStores_of_loadFile {p : Path} {text : String} {a : Settings} {j : Json}
    (hread : fs.read p = .ok text) (hjson : p.hasExtension "toml" = false)
    (hload : loadFile fs p = .ok a) (hj : Json.ofString text = .ok j)
    (hstore : fs'.read (s.path fileName) = .ok text) : loadStores fs' [s] = .ok a := by
  have hvalue : shape.readJson j = .ok a := by
    have hshape : shape.ofString text = .ok a := by
      simp only [loadFile, Files.load, hread, hjson, Bool.false_eq_true, if_false] at hload
      cases h : shape.ofString text <;> simp_all
    exact Json.Shape.readJson_of_readOutline shape (Json.Document.finish_eq_ok.mp hshape).1
      (Json.Document.finish_eq_ok.mp hj).1
  have hlayers : layersOf fs' [s] = .ok [j] := layersOf_one (Store.loadOptional_of_read hstore hj)
  refine (loadStores_eq_ok hlayers).mpr ?_
  exact readJson_lowest shape_regular.1 (Json.ofString_tidy hj) hvalue

/-- A tree with two stores and the texts that they hold. -/
def treeOf (lower upper : String) : Files where
  root := .directory [("lower", .directory [("config.json", .file lower false)]),
    ("upper", .directory [("config.json", .file upper false)])]
  workingDirectory := []

section
variable {lower upper : String} {j : Json}

theorem layer_of_lower (hj : Json.ofString lower = .ok j) :
    Store.loadOptional ⟨⟨"/lower"⟩⟩ (treeOf lower upper) .any fileName = .ok (some j) :=
  Store.loadOptional_of_read rfl hj

theorem layer_of_upper (hj : Json.ofString upper = .ok j) :
    Store.loadOptional ⟨⟨"/upper"⟩⟩ (treeOf lower upper) .any fileName = .ok (some j) :=
  Store.loadOptional_of_read rfl hj

end

/-- A section that is written as an array, and a null. -/
theorem loadStores_of_loadFile_array :
    loadFile (treeOf "\x7b\"server\":[\"ls\"],\"companion\":null\x7d" "") ⟨"/lower/config.json"⟩ =
      .ok { server := { command := "ls" } } ∧
    loadStores (treeOf "" "\x7b\"server\":[\"ls\"],\"companion\":null\x7d") [⟨⟨"/upper"⟩⟩] =
      .ok { server := { command := "ls" } } := by
  have hread : (treeOf "\x7b\"server\":[\"ls\"],\"companion\":null\x7d" "").read
      ⟨"/lower/config.json"⟩ = .ok "\x7b\"server\":[\"ls\"],\"companion\":null\x7d" := rfl
  have hjson : Path.hasExtension ⟨"/lower/config.json"⟩ "toml" = false :=
    Store.file_not_toml ⟨⟨"/lower"⟩⟩
  have hshape : shape.ofString "\x7b\"server\":[\"ls\"],\"companion\":null\x7d" =
      .ok { server := { command := "ls" } } := by cbv
  have hload : loadFile (treeOf "\x7b\"server\":[\"ls\"],\"companion\":null\x7d" "")
      ⟨"/lower/config.json"⟩ = .ok { server := { command := "ls" } } := by
    simp [loadFile, Files.load, hread, hjson, hshape]
  have hj : Json.ofString "\x7b\"server\":[\"ls\"],\"companion\":null\x7d" =
      .ok (.object [("companion", .null), ("server", .array [.string "ls"])]) := by cbv
  exact ⟨hload, loadStores_of_loadFile hread hjson hload hj rfl⟩

end Settings

end Supervisor
