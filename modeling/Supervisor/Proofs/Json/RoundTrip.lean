import Supervisor.Proofs.Json.Reading
import Supervisor.Proofs.Json.Scanning
/-!
# Reading back what was written

A value that is written and read again comes back with its members in order, and typed data come back
as they were. What it takes for this is said of the shape and of the data apart: a shape is lawful if
what it omits is what it takes for absent, and data fit a shape if they keep to its limits.
-/
namespace Supervisor.Json

variable {α ρ : Type}

/-! ## The outline of a written value -/

mutual

def outline : Json → Outline
  | .null => .null
  | .bool b => .bool b
  | .number n => .number n.numeral
  | .string s => .string (.ofString s)
  | .array items => .array (outlineItems items) .closed
  | .object ms => .object (outlineMembers ms) none .closed

def outlineItems : List Json → List Outline
  | [] => []
  | j :: rest => outline j :: outlineItems rest

def outlineMembers : List (String × Json) → List (StringBody × Outline)
  | [] => []
  | (n, j) :: rest => (.ofString n, outline j) :: outlineMembers rest

end

theorem outline_ne_null {j : Json} (h : j ≠ .null) : j.outline ≠ .null := by
  cases j <;> simp_all [outline]

namespace Outline

/-- A value may start at the place; `fs` is then the way back out of it. -/
inductive Awaits : Place → List Frame → Prop
  | value (fs : List Frame) : Awaits (.value fs) fs
  | item (before : List Outline) (fs : List Frame) : Awaits (.item before fs) (.item before :: fs)

theorem Awaits.step {p : Place} {fs : List Frame} (h : Awaits p fs) {t : Token}
    (ht : t ≠ .closeArray) : step p t = atValue t fs := by
  cases h with
  | value fs => rfl
  | item before fs => simp [Outline.step, ht]

theorem Awaits.openArray {p : Place} {fs : List Frame} (h : Awaits p fs) (rest : List Token) :
    build p (.openArray :: rest) = build (.item [] fs) rest := by
  simp [build, h.step, atValue]

theorem Awaits.openObject {p : Place} {fs : List Frame} (h : Awaits p fs) (rest : List Token) :
    build p (.openObject :: rest) = build (.name [] fs) rest := by
  simp [build, h.step, atValue]

theorem build_name (before : List (StringBody × Outline)) (n : String) (fs : List Frame)
    (rest : List Token) : build (.name before fs) (.string (.ofString n) :: .colon :: rest) =
      build (.value (.member before (.ofString n) :: fs)) rest := by
  simp [build, step, StringBody.ofString]

mutual

/-- The tokens of a value are put together as its outline, wherever it stands. -/
theorem build_lexemes : ∀ (j : Json) {p : Place} {fs : List Frame} (rest : List Token),
    Awaits p fs → build p (lexemes j ++ rest) = build (plug j.outline fs) rest
  | .null, p, fs, rest, h | .bool _, p, fs, rest, h | .number _, p, fs, rest, h => by
    simp [lexemes, build, h.step, atValue, outline]
  | .string s, p, fs, rest, h => by
    simp [lexemes, build, h.step, atValue, outline, StringBody.ofString]
  | .array [], p, fs, rest, h => h.openArray (.closeArray :: rest)
  | .array (j :: items), p, fs, rest, h => by
    simp only [lexemes, List.cons_append, List.append_assoc]
    rw [h.openArray, build_lexemes j _ (.item [] fs)]
    exact build_itemLexemes items [j.outline] fs rest
  | .object [], p, fs, rest, h => h.openObject (.closeObject :: rest)
  | .object ((n, j) :: ms), p, fs, rest, h => by
    simp only [lexemes, List.cons_append, List.append_assoc]
    rw [h.openObject, build_name, build_lexemes j _ (.value _)]
    exact build_memberLexemes ms [(.ofString n, j.outline)] fs rest

theorem build_itemLexemes : ∀ (items : List Json) (before : List Outline) (fs : List Frame)
    (rest : List Token), build (.afterItem before fs) (itemLexemes items ++ rest) =
      build (plug (.array (before.reverse ++ outlineItems items) .closed) fs) rest
  | [], before, fs, rest => by simp [itemLexemes, build, step, outlineItems]
  | j :: items, before, fs, rest => by
    have hcomma : build (.afterItem before fs) (itemLexemes (j :: items) ++ rest) =
        build (.item before fs) (lexemes j ++ (itemLexemes items ++ rest)) := by
      simp [itemLexemes, build, step]
    rw [hcomma, build_lexemes j _ (.item before fs)]
    simpa [plug, outlineItems] using build_itemLexemes items (j.outline :: before) fs rest

theorem build_memberLexemes : ∀ (ms : List (String × Json)) (before : List (StringBody × Outline))
    (fs : List Frame) (rest : List Token),
    build (.afterMember before fs) (memberLexemes ms ++ rest) =
      build (plug (.object (before.reverse ++ outlineMembers ms) none .closed) fs) rest
  | [], before, fs, rest => by simp [memberLexemes, build, step, outlineMembers]
  | (n, j) :: ms, before, fs, rest => by
    have hcomma : build (.afterMember before fs) (memberLexemes ((n, j) :: ms) ++ rest) =
        build (.name before fs) (.string (.ofString n) :: .colon ::
          (lexemes j ++ (memberLexemes ms ++ rest))) := by
      simp [memberLexemes, build, step]
    rw [hcomma, build_name, build_lexemes j _ (.value _)]
    simpa [plug, outlineMembers] using
      build_memberLexemes ms ((.ofString n, j.outline) :: before) fs rest

end

end Outline

theorem Document.ofString_pretty {j : Json} (h : j.Every Whole) :
    Document.ofString j.pretty = ⟨j.outline, false⟩ := by
  have hbuild := Outline.build_lexemes j [] (.value [])
  rw [List.append_nil] at hbuild
  rw [Document.ofString, Document.ofGlyphs, tokens_pretty h, hbuild]
  rfl

/-! ## Values -/

theorem enter_of_lt {n d : Nat} (h : n + 1 < d) : ∃ d', enter d = .ok d' ∧ n < d' := by
  match d with
  | d + 2 => exact ⟨d + 1, rfl, by omega⟩

theorem mishap_text (s : String) : mishap (StringBody.ofString s).text = .ok s := by
  rw [StringBody.text_ofString]
  rfl

theorem mishap_value {z : Int} (h : Fitting (.number (.whole z))) :
    mishap (Numeral.ofInt z).value = .ok (.whole z) := by
  rw [Numeral.value_ofInt h.1 h.2]
  rfl

namespace Outline

mutual

/-- A value comes back from its outline with its members in order. -/
theorem readAny_outline : ∀ {j : Json} {depth : Nat}, j.Every Fitting → j.Every Whole →
    j.nesting < depth → j.outline.readAny depth = .ok j.sorted
  | .null, _, _, _, _ | .bool _, _, _, _, _ => by simp [outline, readAny, Json.sorted]
  | .number (.whole z), _, hf, _, _ => by
    have hz := mishap_value hf.here
    simp [outline, readAny, Json.sorted, Number.numeral, hz, Except.map]
  | .number (.double _), _, _, hw, _ => hw.here.elim
  | .string s, _, _, _, _ => by
    simp [outline, readAny, Json.sorted, mishap_text, Except.map]
  | .array items, depth, hf, hw, hd => by
    obtain ⟨d, hd', hlt⟩ := enter_of_lt hd
    have hitems := readItems_outline hf.2 hw.2 hlt
    simp [outline, readAny, Json.sorted, hd', hitems, Ending.ofArray, bind, Except.bind, pure,
      Except.pure]
  | .object ms, depth, hf, hw, hd => by
    obtain ⟨d, hd', hlt⟩ := enter_of_lt hd
    have hms := readMembers_outline hf.2 hw.2 hlt []
    simp [outline, readAny, Json.sorted, hd', hms, endObject, Ending.ofObject, bind, Except.bind,
      pure, Except.pure]

theorem readItems_outline : ∀ {items : List Json} {depth : Nat}, EveryItem Fitting items →
    EveryItem Whole items → nestingItems items < depth →
    readItems depth (outlineItems items) = .ok (sortedItems items)
  | [], _, _, _, _ => rfl
  | j :: rest, depth, hf, hw, hd => by
    obtain ⟨hj, hrest⟩ := max_lt_iff.mp hd
    simp [outlineItems, readItems, sortedItems, readAny_outline hf.1 hw.1 hj,
      readItems_outline hf.2 hw.2 hrest, bind, Except.bind, pure, Except.pure]

theorem readMembers_outline : ∀ {ms : List (String × Json)} {depth : Nat}, EveryMember Fitting ms →
    EveryMember Whole ms → nestingMembers ms < depth → ∀ t : Table Json,
    readMembers depth (outlineMembers ms) t = .ok (sortedMembers ms t)
  | [], _, _, _, _, _ => rfl
  | (n, j) :: rest, depth, hf, hw, hd, t => by
    obtain ⟨hj, hrest⟩ := max_lt_iff.mp hd
    simp [outlineMembers, readMembers, sortedMembers, mishap_text, readAny_outline hf.1 hw.1 hj,
      readMembers_outline hf.2 hw.2 hrest, bind, Except.bind]

end

end Outline

/-- A text that was written is read as the value, with its members in order. -/
theorem ofString_pretty {j : Json} (hf : j.Every Fitting) (hw : j.Every Whole)
    (hd : j.nesting < depthLimit) : ofString j.pretty = .ok j.sorted := by
  rw [ofString, Document.ofString_pretty hw]
  exact Document.finish_eq_ok.mpr ⟨Outline.readAny_outline hf hw hd, rfl⟩

/-! ## Data that fit a shape -/

mutual

/-- The data keep to the limits of the shape, so that they can be told from what is written. -/
def Shape.Fits : {α : Type} → Shape α → α → Prop
  | _, .word _ read write, a => read (write a) = .ok a
  | _, .natural _ bits, n => n < Nat.pow 2 bits
  | _, .integer, z => -(Nat.pow 2 63 : Nat) ≤ z ∧ z < (Nat.pow 2 63 : Nat)
  | _, .any, j => j.Every Sound
  | _, .optional s, a => ∀ b ∈ a, s.Fits b ∧ s.write b ≠ .null
  | _, .list s, as => ∀ a ∈ as, s.Fits a
  | _, .table s, t => t.Ordered ∧ ∀ e ∈ t, s.Fits e.2
  | _, .choice variants write, a => variants.lookup (write a) = some a
  | _, .record _ fields make parts, a => make (parts a) = a ∧ fields.Fits (parts a)
  | _, .text, _ | _, .flag, _ => True

def Fields.Fits : {ρ : Type} → Fields ρ → ρ → Prop
  | _, .nil, _ => True
  | _, .cons n absent omitted s rest, (a, row) =>
    s.Fits a ∧ (omitted a = true → absent.inObject n = .ok a) ∧ rest.Fits row

end

def Fields.names : {ρ : Type} → Fields ρ → List String
  | _, .nil => []
  | _, .cons n _ _ _ rest => n :: rest.names

mutual

/-- Numbers fit 64 bits, no two fields have one name, and a field is omitted only where it is what it
is taken for when absent. -/
def Shape.Lawful : {α : Type} → Shape α → Prop
  | _, .word _ read write => ∀ t a, read t = .ok a → read (write a) = .ok a
  | _, .natural _ bits => bits ≤ 64
  | _, .optional s | _, .list s | _, .table s => s.Lawful
  | _, .choice variants write =>
    ∀ n a, variants.lookup n = some a → variants.lookup (write a) = some a
  | _, .record _ fields make parts =>
    fields.Lawful ∧ fields.names.Nodup ∧ ∀ row, parts (make row) = row
  | _, .text | _, .integer | _, .flag | _, .any => True

def Fields.Lawful : {ρ : Type} → Fields ρ → Prop
  | _, .nil => True
  | _, .cons n absent omitted s rest =>
    s.Lawful ∧ (∀ a, omitted a = true → absent.inObject n = .ok a) ∧
      (∀ a, absent.inObject n = .ok a → s.Fits a) ∧ rest.Lawful

end

/-! ## What is written of them -/

theorem Fields.every_write_cons {P : Json → Prop} {n : String} {absent : Absent α}
    {omitted : α → Bool} {s : Shape α} {rest : Fields ρ} {a : α} {row : ρ} :
    (∀ e ∈ (Fields.cons n absent omitted s rest).write (a, row), e.2.Every P) ↔
      (omitted a = false → (s.write a).Every P) ∧ ∀ e ∈ rest.write row, e.2.Every P := by
  cases h : omitted a <;> simp [Fields.write, h]

theorem Fields.mem_names_of_mem_write : ∀ {ρ : Type} (fields : Fields ρ) {row : ρ}
    {e : String × Json}, e ∈ fields.write row → e.1 ∈ fields.names
  | _, .nil, _, _, h => by simp [Fields.write] at h
  | _, .cons n _ omitted s rest, (a, row), e, h => by
    simp only [Fields.write] at h
    split_ifs at h
    · exact List.mem_cons_of_mem _ (Fields.mem_names_of_mem_write rest h)
    · rcases List.mem_cons.mp h with rfl | h
      · exact List.mem_cons_self
      · exact List.mem_cons_of_mem _ (Fields.mem_names_of_mem_write rest h)

theorem Fields.lookup_write_of_not_mem {fields : Fields ρ} {row : ρ} {n : String}
    (h : n ∉ fields.names) : (fields.write row).lookup n = none := by
  rw [List.lookup_eq_none_iff]
  intro e he
  have hne : n ≠ e.1 := fun heq => h (heq ▸ Fields.mem_names_of_mem_write fields he)
  simpa using hne

theorem Fields.nodup_write : ∀ {ρ : Type} (fields : Fields ρ) (row : ρ), fields.names.Nodup →
    ((fields.write row).map (·.1)).Nodup
  | _, .nil, _, _ => by simp [Fields.write]
  | _, .cons n _ omitted s rest, (a, row), h => by
    obtain ⟨hn, hrest⟩ := List.nodup_cons.mp h
    have hnodup := Fields.nodup_write rest row hrest
    simp only [Fields.write]
    split_ifs
    · exact hnodup
    · refine List.nodup_cons.mpr ⟨fun hmem => ?_, hnodup⟩
      obtain ⟨e, he, rfl⟩ := List.mem_map.mp hmem
      exact hn (Fields.mem_names_of_mem_write rest he)

mutual

/-- The whole numbers that are written fit 64 bits. -/
theorem Shape.write_fitting : ∀ {α : Type} (s : Shape α) {a : α}, s.Lawful → s.Fits a →
    (s.write a).Every Fitting
  | _, .text, _, _, _ | _, .word _ _ _, _, _, _ | _, .flag, _, _, _ | _, .choice _ _, _, _, _ => by
    simp [Shape.write, Every, Fitting]
  | _, .natural _ bits, n, hs, ha => by
    have hlt : n < 2 ^ 64 := Nat.lt_of_lt_of_le ha (Nat.pow_le_pow_right (by decide) hs)
    simp only [Shape.write, nat, Every, Fitting]
    have hpow : Nat.pow 2 64 = 2 ^ 64 := rfl
    constructor <;> omega
  | _, .integer, z, _, ha => by
    have hlt : (Nat.pow 2 63 : Int) < Nat.pow 2 64 := by decide
    simp only [Shape.write, int, Every, Fitting]
    exact ⟨ha.1, ha.2.trans hlt⟩
  | _, .any, j, _, ha => Every.mono (fun _ h => h.fitting) ha
  | _, .optional s, none, _, _ => by simp [Shape.write, Every, Fitting]
  | _, .optional s, some b, hs, ha => Shape.write_fitting s hs (ha b rfl).1
  | _, .list s, as, hs, ha => by
    refine every_array.mpr ⟨trivial, fun j hj => ?_⟩
    obtain ⟨a, hmem, rfl⟩ := List.mem_map.mp hj
    exact Shape.write_fitting s hs (ha a hmem)
  | _, .table s, t, hs, ha => by
    refine every_object.mpr ⟨trivial, fun e he => ?_⟩
    obtain ⟨e', hmem, rfl⟩ := List.mem_map.mp he
    exact Shape.write_fitting s hs (ha.2 e' hmem)
  | _, .record _ fields _ parts, a, hs, ha =>
    every_object.mpr ⟨trivial, Fields.write_fitting fields hs.1 ha.2⟩

theorem Fields.write_fitting : ∀ {ρ : Type} (fields : Fields ρ) {row : ρ}, fields.Lawful →
    fields.Fits row → ∀ e ∈ fields.write row, e.2.Every Fitting
  | _, .nil, _, _, _ => by simp [Fields.write]
  | _, .cons n absent omitted s rest, (a, row), hs, ha =>
    Fields.every_write_cons.mpr
      ⟨fun _ => Shape.write_fitting s hs.1 ha.1, Fields.write_fitting rest hs.2.2.2 ha.2.2⟩

end

mutual

/-- The values in the data that a shape leaves open. -/
def Shape.free : {α : Type} → Shape α → α → List Json
  | _, .any, j => [j]
  | _, .optional s, a => a.toList.flatMap s.free
  | _, .list s, as => as.flatMap s.free
  | _, .table s, t => t.flatMap fun e => s.free e.2
  | _, .record _ fields _ parts, a => fields.free (parts a)
  | _, .text, _ | _, .word _ _ _, _ | _, .natural _ _, _ | _, .integer, _ | _, .flag, _
  | _, .choice _ _, _ => []

def Fields.free : {ρ : Type} → Fields ρ → ρ → List Json
  | _, .nil, _ => []
  | _, .cons _ _ _ s rest, (a, row) => s.free a ++ rest.free row

end

mutual

/-- Doubles are written of data only if they are in a value that the shape leaves open. -/
theorem Shape.write_whole : ∀ {α : Type} (s : Shape α) {a : α}, (∀ j ∈ s.free a, j.Every Whole) →
    (s.write a).Every Whole
  | _, .text, _, _ | _, .word _ _ _, _, _ | _, .natural _ _, _, _ | _, .integer, _, _
  | _, .flag, _, _ | _, .choice _ _, _, _ => by
    simp [Shape.write, nat, int, Every, Whole]
  | _, .any, j, h => h j (List.mem_singleton_self j)
  | _, .optional s, none, _ => by simp [Shape.write, Every, Whole]
  | _, .optional s, some b, h =>
    Shape.write_whole s fun j hj => h j (List.mem_flatMap.mpr ⟨b, by simp, hj⟩)
  | _, .list s, as, h => by
    refine every_array.mpr ⟨trivial, fun j hj => ?_⟩
    obtain ⟨a, hmem, rfl⟩ := List.mem_map.mp hj
    exact Shape.write_whole s fun j hj => h j (List.mem_flatMap.mpr ⟨a, hmem, hj⟩)
  | _, .table s, t, h => by
    refine every_object.mpr ⟨trivial, fun e he => ?_⟩
    obtain ⟨e', hmem, rfl⟩ := List.mem_map.mp he
    exact Shape.write_whole s fun j hj => h j (List.mem_flatMap.mpr ⟨e', hmem, hj⟩)
  | _, .record _ fields _ parts, a, h => every_object.mpr ⟨trivial, Fields.write_whole fields h⟩

theorem Fields.write_whole : ∀ {ρ : Type} (fields : Fields ρ) {row : ρ},
    (∀ j ∈ fields.free row, j.Every Whole) → ∀ e ∈ fields.write row, e.2.Every Whole
  | _, .nil, _, _ => by simp [Fields.write]
  | _, .cons n absent omitted s rest, (a, row), h => by
    refine Fields.every_write_cons.mpr ⟨fun _ => ?_, ?_⟩
    · exact Shape.write_whole s fun j hj => h j (List.mem_append_left _ hj)
    · exact Fields.write_whole rest fun j hj => h j (List.mem_append_right _ hj)

end

/-! ## Reading them back -/

theorem readEach_outline {read : Outline → Except ReadError α} {write : α → Json} {as : List α}
    (h : ∀ a ∈ as, read (write a).outline = .ok a) :
    readEach read (outlineItems (as.map write)) = .ok as := by
  induction as with
  | nil => rfl
  | cons a as ih =>
    obtain ⟨ha, has⟩ := List.forall_mem_cons.mp h
    simp [outlineItems, readEach, ha, ih has, bind, Except.bind, pure, Except.pure]

theorem readEntries_outline {read : Outline → Except ReadError α} {write : α → Json}
    {entries : Table α} (h : ∀ e ∈ entries, read (write e.2).outline = .ok e.2) (t : Table α) :
    readEntries read (outlineMembers (entries.map fun (n, a) => (n, write a))) t =
      .ok (t.override entries) := by
  induction entries generalizing t with
  | nil => rfl
  | cons e rest ih =>
    obtain ⟨n, a⟩ := e
    obtain ⟨ha, hrest⟩ := List.forall_mem_cons.mp h
    simp only [List.map_cons, outlineMembers, readEntries, mishap_text, bind, Except.bind, ha]
    exact ih hrest _

/-- Members whose names differ, all of which the record knows, are all picked. -/
theorem readKnown_outline {check : String → Option (Outline → Except ReadError Unit)}
    {ms : List (String × Json)} (known : List (String × Outline))
    (hnames : (ms.map (·.1)).Nodup) (hnew : ∀ e ∈ ms, known.lookup e.1 = none)
    (hcheck : ∀ e ∈ ms, ∃ read, check e.1 = some read ∧ read e.2.outline = .ok ()) :
    readKnown check (outlineMembers ms) known =
      .ok (known.reverse ++ ms.map fun e => (e.1, e.2.outline)) := by
  induction ms generalizing known with
  | nil => simp [outlineMembers, readKnown]
  | cons e rest ih =>
    obtain ⟨n, j⟩ := e
    obtain ⟨hn, hnames⟩ := List.nodup_cons.mp hnames
    obtain ⟨hfirst, hnew⟩ := List.forall_mem_cons.mp hnew
    obtain ⟨⟨read, hread, hj⟩, hcheck⟩ := List.forall_mem_cons.mp hcheck
    have hnew' : ∀ e ∈ rest, List.lookup e.1 ((n, j.outline) :: known) = none := by
      intro e he
      have hne : e.1 ≠ n := fun h => hn (h ▸ List.mem_map.mpr ⟨e, he, rfl⟩)
      simp [List.lookup_cons, beq_eq_false_iff_ne.mpr hne, hnew e he]
    simp only [outlineMembers, readKnown, mishap_text, bind, Except.bind, hread, hfirst,
      Option.isSome_none, Bool.false_eq_true, if_false, hj, ih _ hnames hnew' hcheck]
    simp

theorem lookup_map_outline (n : String) (ms : List (String × Json)) :
    (ms.map fun e => (e.1, e.2.outline)).lookup n = (ms.lookup n).map outline := by
  induction ms with
  | nil => rfl
  | cons e ms ih =>
    obtain ⟨m, j⟩ := e
    simp only [List.map_cons, List.lookup_cons]
    cases n == m <;> simp [ih]

theorem readNatural_of_lt {wanted : String} {bits n : Nat} (h : n < Nat.pow 2 bits) :
    readNatural wanted bits (.whole n) = .ok n := by
  have hlt : (n : Int) < (Nat.pow 2 bits : Nat) := Int.ofNat_lt.mpr h
  simp only [readNatural, Int.natCast_nonneg, hlt, decide_true, Bool.and_self, if_true,
    Int.toNat_natCast]

theorem readInteger_of_fits {z : Int} (h : Shape.integer.Fits z) :
    readInteger (.whole z) = .ok z := by
  have hl : -(Nat.pow 2 63 : Nat) ≤ z := h.1
  have hu : z < (Nat.pow 2 63 : Nat) := h.2
  simp only [readInteger, hl, hu, decide_true, Bool.and_self, if_true]

theorem readOutline_optional_of {s : Shape α} {depth : Nat} {o : Outline} (ho : o ≠ .null) :
    s.optional.readOutline depth o = (s.readOutline depth o).map some := by
  cases o with
  | null => exact (ho rfl).elim
  | _ => rfl

mutual

/-- Data that fit come back from what is written of them. -/
theorem Shape.readOutline_write : ∀ {α : Type} (s : Shape α) {depth : Nat} {a : α}, s.Lawful →
    s.Fits a → (s.write a).Every Whole → (s.write a).nesting < depth →
    s.readOutline depth (s.write a).outline = .ok a
  | _, .text, _, s, _, _, _, _ => mishap_text s
  | _, .word _ read write, _, a, _, ha, _, _ => by
    have hread : read (write a) = .ok a := ha
    simp [Shape.write, outline, Shape.readOutline, mishap_text, Except.bind, hread, refusal]
  | _, .natural wanted bits, _, n, hs, ha, _, _ => by
    have hf : Fitting (.number (.whole n)) :=
      (Shape.write_fitting (.natural wanted bits) hs ha).here
    simp [Shape.write, nat, outline, Shape.readOutline, Number.numeral, mishap_value hf, Except.bind,
      readNatural_of_lt ha]
  | _, .integer, _, z, hs, ha, _, _ => by
    have hf : Fitting (.number (.whole z)) := (Shape.write_fitting .integer hs ha).here
    simp [Shape.write, int, outline, Shape.readOutline, Number.numeral, mishap_value hf, Except.bind,
      readInteger_of_fits ha]
  | _, .flag, _, _, _, _, _, _ => rfl
  | _, .any, depth, j, _, ha, hw, hd => by
    have hread := Outline.readAny_outline (Every.mono (fun _ h => h.fitting) ha) hw hd
    rwa [ha.sorted_eq] at hread
  | _, .optional s, _, none, _, _, _, _ => rfl
  | _, .optional s, depth, some b, hs, ha, hw, hd => by
    obtain ⟨hb, hnull⟩ := ha b rfl
    have hread := Shape.readOutline_write s hs hb hw hd
    rw [Shape.write, readOutline_optional_of (outline_ne_null hnull), hread]
    rfl
  | _, .list s, depth, as, hs, ha, hw, hd => by
    obtain ⟨d, hd', hlt⟩ := enter_of_lt hd
    have hall : ∀ a ∈ as, s.readOutline d (s.write a).outline = .ok a := by
      intro a hmem
      have hmem' : s.write a ∈ as.map s.write := List.mem_map_of_mem hmem
      have hle := nestingItems_le.mp (le_refl _) _ hmem'
      exact Shape.readOutline_write s hs (ha a hmem) ((every_array.mp hw).2 _ hmem')
        (lt_of_le_of_lt hle hlt)
    simp [Shape.write, outline, Shape.readOutline, hd', readEach_outline hall, Ending.ofArray, bind,
      Except.bind, pure, Except.pure]
  | _, .table s, depth, t, hs, ha, hw, hd => by
    obtain ⟨d, hd', hlt⟩ := enter_of_lt hd
    have hall : ∀ e ∈ t, s.readOutline d (s.write e.2).outline = .ok e.2 := by
      intro e hmem
      have hmem' : (e.1, s.write e.2) ∈ t.map fun (n, a) => (n, s.write a) :=
        List.mem_map.mpr ⟨e, hmem, rfl⟩
      have hle := nestingMembers_le.mp (le_refl _) _ hmem'
      exact Shape.readOutline_write s hs (ha.2 e hmem) ((every_object.mp hw).2 _ hmem')
        (lt_of_le_of_lt hle hlt)
    simp [Shape.write, outline, Shape.readOutline, hd', readEntries_outline hall,
      Table.override_nil ha.1, endObject, Ending.ofObject, bind, Except.bind, pure, Except.pure]
  | _, .choice variants write, _, a, _, ha, _, _ => by
    have hfind : variants.lookup (write a) = some a := ha
    simp [Shape.write, outline, Shape.readOutline, mishap_text, Except.bind, findVariant, hfind]
  | _, .record name fields make parts, depth, a, hs, ha, hw, hd => by
    obtain ⟨hfields, hnames, -⟩ := hs
    obtain ⟨hmake, hrow⟩ := ha
    obtain ⟨d, hd', hlt⟩ := enter_of_lt (n := nestingMembers (fields.write (parts a))) hd
    have hwhole := (every_object.mp hw).2
    have hdeep : ∀ e ∈ fields.write (parts a), e.2.nesting < d := by
      intro e he
      exact lt_of_le_of_lt (nestingMembers_le.mp (le_refl _) e he) hlt
    have hknown := readKnown_outline [] (fields.nodup_write (parts a) hnames) (by simp)
      (Fields.check_write fields hfields hnames hrow hwhole hdeep)
    have hmembers := Fields.readMembers_write fields hfields hnames hrow hwhole hdeep
      fun n _ => lookup_map_outline n (fields.write (parts a))
    rw [List.reverse_nil, List.nil_append] at hknown
    simp [Shape.write, outline, Shape.readOutline, hd', hknown, hmembers, hmake, endObject,
      Ending.ofObject, bind, Except.bind, pure, Except.pure]

/-- Every member that is written is known to the record, and can be read. -/
theorem Fields.check_write : ∀ {ρ : Type} (fields : Fields ρ) {depth : Nat} {row : ρ},
    fields.Lawful → fields.names.Nodup → fields.Fits row →
    (∀ e ∈ fields.write row, e.2.Every Whole) → (∀ e ∈ fields.write row, e.2.nesting < depth) →
    ∀ e ∈ fields.write row, ∃ read, fields.check depth e.1 = some read ∧ read e.2.outline = .ok ()
  | _, .nil, _, _, _, _, _, _, _ => by simp [Fields.write]
  | _, .cons n absent omitted s rest, depth, (a, row), hs, hnames, ha, hw, hd => by
    obtain ⟨hn, hnames⟩ := List.nodup_cons.mp hnames
    have hrest : (∀ e ∈ rest.write row, e.2.Every Whole) → (∀ e ∈ rest.write row, e.2.nesting < depth) →
        ∀ e ∈ rest.write row, ∃ read, (Fields.cons n absent omitted s rest).check depth e.1 = some read ∧
          read e.2.outline = .ok () := by
      intro hw hd e he
      have hne : n ≠ e.1 := fun h => hn (h ▸ rest.mem_names_of_mem_write he)
      rw [Fields.check, if_neg hne]
      exact Fields.check_write rest hs.2.2.2 hnames ha.2.2 hw hd e he
    simp only [Fields.write] at hw hd ⊢
    split_ifs at hw hd ⊢ with homitted
    · exact hrest hw hd
    · obtain ⟨hw, hw'⟩ := List.forall_mem_cons.mp hw
      obtain ⟨hd, hd'⟩ := List.forall_mem_cons.mp hd
      refine List.forall_mem_cons.mpr ⟨⟨_, if_pos rfl, ?_⟩, hrest hw' hd'⟩
      rw [Shape.readOutline_write s hs.1 ha.1 hw hd]
      rfl

/-- The row of a record comes back from the members that are written of it. -/
theorem Fields.readMembers_write : ∀ {ρ : Type} (fields : Fields ρ) {depth : Nat} {row : ρ}
    {known : List (String × Outline)}, fields.Lawful → fields.names.Nodup → fields.Fits row →
    (∀ e ∈ fields.write row, e.2.Every Whole) → (∀ e ∈ fields.write row, e.2.nesting < depth) →
    (∀ n ∈ fields.names, known.lookup n = ((fields.write row).lookup n).map outline) →
    fields.readMembers depth known = .ok row
  | _, .nil, _, _, _, _, _, _, _, _, _ => rfl
  | _, .cons n absent omitted s rest, depth, (a, row), known, hs, hnames, ha, hw, hd, hk => by
    obtain ⟨hn, hnames⟩ := List.nodup_cons.mp hnames
    obtain ⟨hfirst, hk⟩ := List.forall_mem_cons.mp hk
    have hk' : ∀ m ∈ rest.names, known.lookup m = ((rest.write row).lookup m).map outline := by
      intro m hm
      have hne : m ≠ n := fun h => hn (h ▸ hm)
      rw [hk m hm, Fields.write]
      split_ifs
      · rfl
      · rw [List.lookup_cons, beq_eq_false_iff_ne.mpr hne]
    simp only [Fields.write] at hw hd hfirst
    split_ifs at hw hd hfirst with homitted
    · rw [Fields.lookup_write_of_not_mem hn, Option.map_none] at hfirst
      have hrow := Fields.readMembers_write rest hs.2.2.2 hnames ha.2.2 hw hd hk'
      simp [Fields.readMembers, hfirst, ha.2.1 homitted, hrow, bind, Except.bind, pure, Except.pure]
    · obtain ⟨hw, hw'⟩ := List.forall_mem_cons.mp hw
      obtain ⟨hd, hd'⟩ := List.forall_mem_cons.mp hd
      rw [List.lookup_cons_self, Option.map_some] at hfirst
      have hrow := Fields.readMembers_write rest hs.2.2.2 hnames ha.2.2 hw' hd' hk'
      have hread := Shape.readOutline_write s hs.1 ha.1 hw hd
      simp [Fields.readMembers, hfirst, hread, hrow, bind, Except.bind, pure, Except.pure]

end

/-- Data that fit a shape come back from the text that is written of them. -/
theorem Shape.ofString_write (s : Shape α) {a : α} (hs : s.Lawful) (ha : s.Fits a)
    (hw : (s.write a).Every Whole) (hd : (s.write a).nesting < depthLimit) :
    s.ofString (s.write a).pretty = .ok a := by
  rw [Shape.ofString, Document.ofString_pretty hw]
  exact Document.finish_eq_ok.mpr ⟨s.readOutline_write hs ha hw hd, rfl⟩

end Supervisor.Json
