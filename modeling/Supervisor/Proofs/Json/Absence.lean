import Supervisor.Proofs.Json.Reading
/-!
# Null and absence

A field that is null is either refused, or it stands for what a field stands for that is not there.
A shape is regular if its records keep this law. Whether a null member can be told from a missing one
is then decided by the shape and the place alone.
-/
namespace Supervisor.Json

variable {α β ρ ε : Type}

/-! ## Regular shapes -/

/-- Is null read by the shape? -/
def Shape.takesNull (s : Shape α) : Bool := (s.readJson .null).isOk

/-- Neither null nor an object is read. -/
def Shape.Scalar (s : Shape α) : Prop :=
  ∀ j a, s.readJson j = .ok a → j ≠ .null ∧ ¬ ∃ ms, j = .object ms

/-- A value that says nothing: what null stands for, or an object without members. -/
def Shape.Neutral : {α : Type} → Shape α → α → Prop
  | _, .any, j => j = .null
  | _, .optional _, a => a = none
  | _, .table _, t => t = []
  | _, .record _ fields _ parts, a => fields.membersJson [] = .ok (parts a)
  | _, _, _ => True

/-- What a field stands for that is not there says nothing, and so does null if it is read. -/
structure Shape.AbsentAs (s : Shape α) (absent : Absent α) (name : String) : Prop where
  neutral : ∀ a, absent.inObject name = .ok a → s.Neutral a
  ofNull : ∀ a, s.readJson .null = .ok a → absent.inObject name = .ok a

mutual

/-- Tables are of scalars, records are their fields, and no object stands for a word. -/
def Shape.Regular : {α : Type} → Shape α → Prop
  | _, .choice _ _ => False
  | _, .optional s | _, .list s => s.Regular
  | _, .table s => s.Scalar
  | _, .record _ fields make parts =>
    fields.Regular ∧ (∀ row, parts (make row) = row) ∧ ∀ a, make (parts a) = a
  | _, _ => True

def Fields.Regular : {ρ : Type} → Fields ρ → Prop
  | _, .nil => True
  | _, .cons n absent _ s rest => s.Regular ∧ s.AbsentAs absent n ∧ rest.Regular

end

theorem scalar_text : Shape.text.Scalar := by
  intro j a h
  cases j <;> simp [Shape.readJson] at h ⊢

theorem Shape.AbsentAs.fieldJson_null {s : Shape α} {absent : Absent α} {name : String}
    (h : s.AbsentAs absent name) {a : α} (ha : s.fieldJson absent name (some .null) = .ok a) :
    s.fieldJson absent name none = .ok a := h.ofNull a ha

/-- A record reads the same without its null members. -/
theorem Fields.membersJson_of_dropped : ∀ {ρ : Type} {fields : Fields ρ} {ms ms' : Table Json}
    {row : ρ}, fields.Regular → fields.membersJson ms = .ok row →
    (∀ n, ms'.find? n = ms.find? n ∨ ms.find? n = some .null ∧ ms'.find? n = none) →
    fields.membersJson ms' = .ok row
  | _, .nil, _, _, _, _, _, _ => rfl
  | _, .cons n absent _ s rest, ms, ms', row, hf, h, hd => by
    obtain ⟨-, habsent, hrest⟩ := hf
    obtain ⟨ha, hr⟩ := membersJson_cons.mp h
    refine membersJson_cons.mpr ⟨?_, membersJson_of_dropped hrest hr hd⟩
    rcases hd n with hn | ⟨hnull, hnone⟩
    · rwa [hn]
    · rw [hnull] at ha
      rw [hnone]
      exact habsent.fieldJson_null ha

/-! ## Telling null from absence -/

theorem exists_without {j v : Json} {place : List String} {name : String}
    (h : j.at? (place ++ [name]) = some v) :
    ∃ ms ms', j = .object ms ∧ j.without name place = .object ms' := by
  cases place with
  | nil =>
    obtain ⟨ms, m, rfl, -, -⟩ := exists_object_of_at?_cons h
    exact ⟨ms, _, rfl, rfl⟩
  | cons n rest =>
    obtain ⟨ms, m, rfl, hm, -⟩ := exists_object_of_at?_cons h
    exact ⟨ms, _, rfl, without_object_cons hm⟩

theorem at?_without (j : Json) (place : List String) (name : String) :
    (j.without name place).at? (place ++ [name]) = none := by
  induction place generalizing j with
  | nil =>
    cases j <;> simp [without, at?_cons, member?, Table.find?_erase]
  | cons n rest ih =>
    cases j with
    | object ms =>
      cases hm : Table.find? ms n with
      | none => simp [without, hm]
      | some m => simp [without_object_cons hm, Table.find?_insert, ih]
    | _ => simp [without, at?_cons, member?]

mutual

/-- Can null as the member `name` of the object at a place be told from a missing member? -/
def Shape.hears (name : String) : {α : Type} → Shape α → List String → Bool
  | _, .any, _ => true
  | _, .optional s, place => s.hears name place
  | _, .table _, place => place.isEmpty
  | _, .record _ fields _ _, place => fields.hears name place
  | _, _, _ => false

def Fields.hears (name : String) : {ρ : Type} → Fields ρ → List String → Bool
  | _, .nil, _ => false
  | _, .cons n _ _ s rest, place =>
    (match place with
      | [] => n == name && !s.takesNull
      | m :: inner => n == m && s.hears name inner) || rest.hears name place

end

/-- How a result with a null compares to the one without it. If the null is heard, then whatever is
read is something else; if it is not, the same is read. -/
def Compares (heard : Bool) (x y : Except ε α) : Prop :=
  if heard then ∀ a, x = .ok a → ∃ b, y = .ok b ∧ b ≠ a else ∀ a, x = .ok a ↔ y = .ok a

theorem compares_refl (x : Except ε α) : Compares false x x := fun _ => Iff.rfl

theorem compares_of_not_ok {x y : Except ε α} (hx : ∀ a, x ≠ .ok a) (hy : ∀ a, y ≠ .ok a)
    (heard : Bool) : Compares heard x y := by
  cases heard
  · exact fun a => ⟨fun h => (hx a h).elim, fun h => (hy a h).elim⟩
  · exact fun a h => (hx a h).elim

theorem Compares.congr {heard : Bool} {x y x' y' : Except ε α} (h : Compares heard x' y')
    (hx : ∀ a, x = .ok a ↔ x' = .ok a) (hy : ∀ a, y = .ok a ↔ y' = .ok a) : Compares heard x y := by
  simpa only [Compares, hx, hy] using h

theorem Compares.map {heard : Bool} {x y : Except ε α} (h : Compares heard x y) {f : α → β}
    (hf : Function.Injective f) : Compares heard (x.map f) (y.map f) := by
  cases heard
  · intro b
    simp only [map_eq_ok]
    exact ⟨fun ⟨a, ha, hb⟩ => ⟨a, (h a).mp ha, hb⟩, fun ⟨a, ha, hb⟩ => ⟨a, (h a).mpr ha, hb⟩⟩
  · intro b hb
    obtain ⟨a, ha, rfl⟩ := map_eq_ok.mp hb
    obtain ⟨a', ha', hne⟩ := h a ha
    exact ⟨f a', map_eq_ok.mpr ⟨a', ha', rfl⟩, fun heq => hne (hf heq)⟩

/-- The same is read, unless the null is heard and something is read without it. -/
theorem Compares.same_iff {heard : Bool} {x y : Except ε α} (h : Compares heard x y) :
    (∀ a, x = .ok a ↔ y = .ok a) ↔ ¬ (heard = true ∧ ∃ a, y = .ok a) := by
  cases heard with
  | false => exact ⟨fun _ => by simp, fun _ => h⟩
  | true =>
    constructor
    · rintro hsame ⟨-, a, ha⟩
      obtain ⟨b, hb, hne⟩ := h a ((hsame a).mpr ha)
      exact hne (Except.ok.inj (hb.symm.trans ha))
    · intro hno a
      refine ⟨fun ha => ?_, fun ha => (hno ⟨rfl, a, ha⟩).elim⟩
      obtain ⟨b, hb, -⟩ := h a ha
      exact (hno ⟨rfl, b, hb⟩).elim

/-- Two results side by side. -/
theorem Compares.pair {h₁ h₂ : Bool} {x y : Except ε α} {x' y' : Except ε β} {z w : Except ε (α × β)}
    (hxy : Compares h₁ x y) (hxy' : Compares h₂ x' y')
    (hz : ∀ p, z = .ok p ↔ x = .ok p.1 ∧ x' = .ok p.2)
    (hw : ∀ p, w = .ok p ↔ y = .ok p.1 ∧ y' = .ok p.2) : Compares (h₁ || h₂) z w := by
  cases h₁ with
  | false =>
    cases h₂ with
    | false =>
      intro p
      rw [hz, hw, hxy p.1, hxy' p.2]
    | true =>
      intro p hp
      obtain ⟨ha, hb⟩ := (hz p).mp hp
      obtain ⟨b, hb', hne⟩ := hxy' _ hb
      exact ⟨(p.1, b), (hw _).mpr ⟨(hxy _).mp ha, hb'⟩, fun heq => hne (congrArg Prod.snd heq)⟩
  | true =>
    intro p hp
    obtain ⟨ha, hb⟩ := (hz p).mp hp
    obtain ⟨a, ha', hne⟩ := hxy _ ha
    have hsnd : ∃ b, y' = .ok b := by
      cases h₂ with
      | false => exact ⟨_, (hxy' _).mp hb⟩
      | true =>
        obtain ⟨b, hb', -⟩ := hxy' _ hb
        exact ⟨b, hb'⟩
    obtain ⟨b, hb'⟩ := hsnd
    exact ⟨(a, b), (hw _).mpr ⟨ha', hb'⟩, fun heq => hne (congrArg Prod.fst heq)⟩

theorem compares_entries {read : Json → Except ReadError α} {ms : Table Json} (ho : ms.Ordered)
    {name : String} (hnull : ms.find? name = some .null) :
    Compares true (entriesJson read ms []) (entriesJson read (ms.erase name) []) := by
  intro t ht
  have hent := (entriesJson_eq_ok_of_ordered ho).mp ht
  refine ⟨t.erase name, (entriesJson_eq_ok_of_ordered (ho.erase name)).mpr (hent.erase name), ?_⟩
  intro heq
  have hfind := hent.find? name
  rw [← heq, Table.find?_erase, if_pos rfl, hnull] at hfind
  simp at hfind

theorem Shape.Scalar.entries_not_ok {s : Shape α} (hs : s.Scalar) {ms ms' : Table Json}
    (ho : ms.Ordered) {n : String} (hm : ms.find? n = some (.object ms')) (t : Table α) :
    entriesJson s.readJson ms [] ≠ .ok t := by
  intro h
  have hfind := ((entriesJson_eq_ok_of_ordered ho).mp h).find? n
  rw [hm, Option.map_some] at hfind
  obtain ⟨a, -, ha⟩ := Option.map_eq_some_iff.mp hfind.symm
  exact (hs _ _ ha.symm).2 ⟨ms', rfl⟩

/-- The field of a record that has null at its own place. -/
theorem Shape.AbsentAs.compares {s : Shape α} {absent : Absent α} {name : String}
    (h : s.AbsentAs absent name) :
    Compares (!s.takesNull) (s.fieldJson absent name (some .null)) (s.fieldJson absent name none) := by
  cases hread : s.readJson .null with
  | ok a =>
    have hnone := h.ofNull a hread
    simp only [takesNull, hread, fieldJson, hnone]
    exact compares_refl _
  | error e =>
    simp only [takesNull, hread, fieldJson]
    exact fun a ha => by cases ha

/-- A shape that does not read objects. -/
theorem compares_of_objectless {s : Shape α} (hs : ∀ ms a, s.readJson (.object ms) ≠ .ok a) {j v : Json}
    {place : List String} {name : String} (h : j.at? (place ++ [name]) = some v) (heard : Bool) :
    Compares heard (s.readJson j) (s.readJson (j.without name place)) := by
  obtain ⟨ms, ms', rfl, hms'⟩ := exists_without h
  rw [hms']
  exact compares_of_not_ok (hs ms) (hs ms') heard

mutual

/-- What is read of an object with a null, compared to what is read without it. -/
theorem Shape.compares_without : ∀ {α : Type} (s : Shape α) {j : Json} {place : List String}
    {name : String}, s.Regular → j.Tidy → j.at? (place ++ [name]) = some .null →
    Compares (s.hears name place) (s.readJson j) (s.readJson (j.without name place))
  | _, .text, _, _, _, _, _, hnull => compares_of_objectless (by simp [Shape.readJson]) hnull _
  | _, .word _ _ _, _, _, _, _, _, hnull => compares_of_objectless (by simp [Shape.readJson]) hnull _
  | _, .natural _ _, _, _, _, _, _, hnull => compares_of_objectless (by simp [Shape.readJson]) hnull _
  | _, .integer, _, _, _, _, _, hnull => compares_of_objectless (by simp [Shape.readJson]) hnull _
  | _, .flag, _, _, _, _, _, hnull => compares_of_objectless (by simp [Shape.readJson]) hnull _
  | _, .list _, _, _, _, _, _, hnull => compares_of_objectless (by simp [Shape.readJson]) hnull _
  | _, .any, j, place, name, hs, hj, hnull => by
    intro a ha
    obtain rfl : j = a := by simpa [Shape.readJson] using ha
    refine ⟨j.without name place, rfl, fun heq => ?_⟩
    have hgone := at?_without j place name
    simp [heq, hnull] at hgone
  | _, .optional s, j, place, name, hs, hj, hnull => by
    have h := Shape.compares_without s hs hj hnull
    obtain ⟨ms, ms', rfl, hms'⟩ := exists_without hnull
    rw [hms'] at h ⊢
    exact h.map fun _ _ => Option.some.inj
  | _, .table s, j, place, name, hs, hj, hnull => by
    cases place with
    | nil =>
      obtain ⟨ms, m, rfl, hm, hmnull⟩ := exists_object_of_at?_cons hnull
      obtain rfl : m = .null := by simpa using hmnull
      exact compares_entries hj.ordered hm
    | cons n rest =>
      obtain ⟨ms, m, rfl, hm, hmnull⟩ := exists_object_of_at?_cons hnull
      obtain ⟨ms₁, ms₁', rfl, hms₁'⟩ := exists_without hmnull
      have hj' := hj.without name (n :: rest)
      rw [without_object_cons hm, hms₁'] at hj' ⊢
      exact compares_of_not_ok (hs.entries_not_ok hj.ordered hm)
        (hs.entries_not_ok hj'.ordered ((Table.find?_insert ..).trans (if_pos rfl))) _
  | _, .choice _ _, _, _, _, hs, _, _ => hs.elim
  | _, .record _ fields make parts, j, place, name, hs, hj, hnull => by
    obtain ⟨hfields, hparts, -⟩ := hs
    have hj' := hj.without name place
    obtain ⟨ms, ms', rfl, hms'⟩ := exists_without hnull
    rw [hms'] at hj' ⊢
    have h := (Fields.compares_without fields hfields hj hnull hms').map
      (Function.LeftInverse.injective hparts)
    exact h.congr (fun _ => (readJson_record_object hj.ordered).trans map_eq_ok.symm)
      fun _ => (readJson_record_object hj'.ordered).trans map_eq_ok.symm

theorem Fields.compares_without : ∀ {ρ : Type} (fields : Fields ρ) {ms ms' : Table Json}
    {place : List String} {name : String}, fields.Regular → Tidy (.object ms) →
    (object ms).at? (place ++ [name]) = some .null → (object ms).without name place = .object ms' →
    Compares (fields.hears name place) (fields.membersJson ms) (fields.membersJson ms')
  | _, .nil, _, _, _, _, _, _, _, _ => compares_refl _
  | _, .cons n absent _ s rest, ms, ms', place, name, hf, hms, hnull, hms' => by
    obtain ⟨hs, habsent, hrest⟩ := hf
    refine Compares.pair ?_ (Fields.compares_without rest hrest hms hnull hms')
      (fun _ => Fields.membersJson_cons) fun _ => Fields.membersJson_cons
    cases place with
    | nil =>
      obtain rfl : ms.erase name = ms' := by simpa [without] using hms'
      rw [Table.find?_erase]
      by_cases hn : n = name
      · subst hn
        have hm : Table.find? ms n = some .null := by simpa [member?] using hnull
        simpa [hm] using habsent.compares
      · simp only [beq_eq_false_iff_ne.mpr hn, if_neg hn, Bool.false_and]
        exact compares_refl _
    | cons k inner =>
      obtain ⟨_, m, heq, hm, hmnull⟩ := exists_object_of_at?_cons hnull
      cases heq
      rw [without_object_cons hm] at hms'
      obtain rfl : ms.insert k (m.without name inner) = ms' := by simpa using hms'
      rw [Table.find?_insert]
      by_cases hn : n = k
      · subst hn
        simpa [hm, Shape.fieldJson] using Shape.compares_without s hs (hms.of_find? hm) hmnull
      · simp only [beq_eq_false_iff_ne.mpr hn, if_neg hn, Bool.false_and]
        exact compares_refl _

end

end Supervisor.Json
