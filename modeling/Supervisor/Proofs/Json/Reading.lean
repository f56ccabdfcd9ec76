import Mathlib
import Supervisor.Json.Shape
import Supervisor.Proofs.Json.Place
/-!
# Tables and records

A table is read entry by entry. A record is read from an object by what the object has under the
names of the fields, so members that no field names do not matter, nor does an order of members.
-/
namespace Supervisor.Json

variable {α β ρ : Type}

/-! ## Tables -/

/-- An entry of an object and the entry of a table that is read from it. -/
def Entry (read : Json → Except ReadError α) (e : String × Json) (e' : String × α) : Prop :=
  e.1 = e'.1 ∧ read e.2 = .ok e'.2

/-- The table that is read from the members of an object, entry by entry. -/
abbrev Entries (read : Json → Except ReadError α) (ms : Table Json) (t : Table α) : Prop :=
  List.Forall₂ (Entry read) ms t

section
variable {read : Json → Except ReadError α} {ms : Table Json} {t : Table α}

theorem Entries.insert (h : Entries read ms t) (name : String) {j : Json} {a : α}
    (hj : read j = .ok a) : Entries read (ms.insert name j) (t.insert name a) := by
  induction h with
  | nil => exact .cons ⟨rfl, hj⟩ .nil
  | @cons e e' ms t he hrest ih =>
    obtain ⟨n, v⟩ := e
    obtain ⟨m, b⟩ := e'
    obtain ⟨rfl, hv⟩ : n = m ∧ read v = .ok b := he
    unfold Table.insert
    split_ifs
    · exact .cons ⟨rfl, hj⟩ hrest
    · exact .cons ⟨rfl, hj⟩ (.cons ⟨rfl, hv⟩ hrest)
    · exact .cons ⟨rfl, hv⟩ ih

theorem Entries.ordered (h : Entries read ms t) (ho : ms.Ordered) : t.Ordered := by
  have hnames : t.map (·.1) = ms.map (·.1) := by
    induction h with
    | nil => rfl
    | cons he _ ih => simp [he.1, ih (List.Pairwise.of_cons ho)]
  have hn : (t.map (·.1)).Pairwise (· < ·) := hnames ▸ List.pairwise_map.mpr ho
  exact List.pairwise_map.mp hn

theorem Entries.erase (h : Entries read ms t) (name : String) :
    Entries read (ms.erase name) (t.erase name) := by
  induction h with
  | nil => exact .nil
  | @cons e e' ms t he _ ih =>
    simp only [Table.erase, List.filter_cons, ← he.1]
    split_ifs
    · exact .cons he ih
    · exact ih

/-- What is found in the table is read from what is found in the object. -/
theorem Entries.find? (h : Entries read ms t) (key : String) :
    (ms.find? key).map read = (t.find? key).map .ok := by
  induction h with
  | nil => rfl
  | @cons e e' ms t he _ ih =>
    obtain ⟨n, v⟩ := e
    obtain ⟨m, b⟩ := e'
    obtain ⟨rfl, hv⟩ : n = m ∧ read v = .ok b := he
    rw [Table.find?_cons, Table.find?_cons]
    by_cases hk : key = n
    · simp [hk, hv]
    · simpa [hk] using ih

theorem entriesJson_eq_ok {t' : Table α} :
    entriesJson read ms t = .ok t' ↔ ∃ es, Entries read ms es ∧ t.override es = t' := by
  induction ms generalizing t with
  | nil => simp [entriesJson, Table.override]
  | cons e ms ih =>
    obtain ⟨n, v⟩ := e
    simp only [entriesJson, bind_eq_ok, ih]
    constructor
    · rintro ⟨a, ha, es, hes, rfl⟩
      exact ⟨(n, a) :: es, .cons ⟨rfl, ha⟩ hes, rfl⟩
    · rintro ⟨_, h, rfl⟩
      obtain ⟨e, es, he, hes, rfl⟩ := List.forall₂_cons_left_iff.mp h
      obtain ⟨rfl, ha⟩ : n = e.1 ∧ read v = .ok e.2 := he
      exact ⟨e.2, ha, es, hes, rfl⟩

theorem entriesJson_eq_ok_of_ordered (ho : ms.Ordered) :
    entriesJson read ms [] = .ok t ↔ Entries read ms t := by
  rw [entriesJson_eq_ok]
  constructor
  · rintro ⟨es, hes, rfl⟩
    rwa [Table.override_nil (hes.ordered ho)]
  · exact fun h => ⟨t, h, Table.override_nil (h.ordered ho)⟩

end

/-! ## Records -/

/-- Reads a field from the member that an object has for it. -/
def Shape.fieldJson (s : Shape α) (absent : Absent α) (name : String) :
    Option Json → Except ReadError α
  | some j => s.readJson j
  | none => absent.inObject name

theorem Fields.membersJson_cons {name : String} {absent : Absent α} {omitted : α → Bool} {s : Shape α}
    {rest : Fields ρ} {ms : Table Json} {row : α × ρ} :
    (Fields.cons name absent omitted s rest).membersJson ms = .ok row ↔
      s.fieldJson absent name (ms.find? name) = .ok row.1 ∧ rest.membersJson ms = .ok row.2 := by
  obtain ⟨a, row⟩ := row
  simp only [Fields.membersJson, Table.find?]
  cases ms.lookup name <;> simp [Shape.fieldJson, bind_eq_ok, pure, Except.pure]

theorem checkKnown_eq_ok {check : String → Option (Json → Except ReadError Unit)} {ms : Table Json} :
    checkKnown check ms = .ok () ↔
      ∀ e ∈ ms, ∀ read, check e.1 = some read → read e.2 = .ok () := by
  induction ms with
  | nil => simp [checkKnown]
  | cons e ms ih =>
    obtain ⟨n, j⟩ := e
    simp only [checkKnown, List.forall_mem_cons]
    cases check n with
    | none => simpa [bind_eq_ok] using ih
    | some read =>
      have hunit : (∃ u, read j = .ok u) ↔ read j = .ok () := by
        constructor
        · rintro ⟨u, h⟩
          exact h
        · intro h
          exact ⟨(), h⟩
      simp [bind_eq_ok, ih, hunit]

/-- The member of a field is checked by reading the field. -/
theorem Fields.checked : ∀ {ρ : Type} {fields : Fields ρ} {ms : Table Json} {row : ρ} {name : String}
    {j : Json} {read : Json → Except ReadError Unit}, fields.membersJson ms = .ok row →
    fields.checkJson name = some read → ms.find? name = some j → read j = .ok ()
  | _, .cons n absent omitted s rest, ms, row, name, j, read, hrow, hread, hj => by
    obtain ⟨ha, hrest⟩ := membersJson_cons.mp hrow
    simp only [checkJson] at hread
    split_ifs at hread with hn
    · subst hn
      obtain rfl := Option.some.inj hread
      rw [hj] at ha
      exact map_eq_ok.mpr ⟨row.1, ha, rfl⟩
    · exact checked hrest hread hj
  | _, .nil, _, _, _, _, _, _, hread, _ => by simp [checkJson] at hread

theorem readJson_record_object {name : String} {fields : Fields ρ} {make : ρ → α} {parts : α → ρ}
    {ms : Table Json} (ho : ms.Ordered) {a : α} :
    (Shape.record name fields make parts).readJson (.object ms) = .ok a ↔
      ∃ row, fields.membersJson ms = .ok row ∧ make row = a := by
  simp only [Shape.readJson, bind_eq_ok, pure, Except.pure, Except.ok.injEq]
  constructor
  · rintro ⟨-, -, h⟩
    exact h
  · rintro ⟨row, hrow, rfl⟩
    have hcheck : checkKnown (fun n => fields.checkJson n) ms = .ok () :=
      checkKnown_eq_ok.mpr fun e he read hread => Fields.checked hrow hread (ho.mem_iff.mp he)
    exact ⟨(), hcheck, row, hrow, rfl⟩

end Supervisor.Json
