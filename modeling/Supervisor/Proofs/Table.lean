import Mathlib.Data.String.Basic
import Supervisor.Table
/-!
# Tables in order

A table has each name once, in ascending order. Every operation keeps it so, and two tables in order
that give the same answers are the same.
-/
namespace Supervisor.Table

variable {α β : Type}

/-- The names are in ascending order. -/
def Ordered (t : Table α) : Prop := t.Pairwise fun a b => a.1 < b.1

theorem ordered_nil : Ordered ([] : Table α) := .nil

theorem find?_cons (name : String) (value : α) (t : Table α) (key : String) :
    find? ((name, value) :: t) key = if key = name then some value else t.find? key := by
  by_cases h : key = name
  · simp [find?, h]
  · simp [find?, List.lookup_cons, h, beq_eq_false_iff_ne.mpr h]

theorem mem_insert {t : Table α} {name : String} {value : α} {e : String × α}
    (h : e ∈ t.insert name value) : e = (name, value) ∨ e ∈ t := by
  induction t with
  | nil => simpa [insert] using h
  | cons head rest ih =>
    obtain ⟨n, v⟩ := head
    unfold insert at h
    split_ifs at h with heq hlt
    · simp only [List.mem_cons] at h ⊢
      tauto
    · simp only [List.mem_cons] at h ⊢
      tauto
    · simp only [List.mem_cons] at h ⊢
      rcases h with h | h
      · exact .inr (.inl h)
      · exact (ih h).imp_right .inr

theorem Ordered.insert {t : Table α} (ht : Ordered t) (name : String) (value : α) :
    Ordered (t.insert name value) := by
  induction t with
  | nil => simp [Table.insert, Ordered]
  | cons head rest ih =>
    obtain ⟨n, v⟩ := head
    obtain ⟨hhead, hrest⟩ := List.pairwise_cons.mp ht
    unfold Table.insert
    split_ifs with heq hlt
    · subst heq
      exact List.pairwise_cons.mpr ⟨hhead, hrest⟩
    · refine List.pairwise_cons.mpr ⟨fun e he => ?_, ht⟩
      rcases List.mem_cons.mp he with rfl | he
      · exact hlt
      · exact lt_trans hlt (hhead e he)
    · refine List.pairwise_cons.mpr ⟨fun e he => ?_, ih hrest⟩
      rcases mem_insert he with rfl | he
      · exact lt_of_le_of_ne (not_lt.mp hlt) (Ne.symm heq)
      · exact hhead e he

theorem Ordered.erase {t : Table α} (ht : Ordered t) (name : String) : Ordered (t.erase name) :=
  List.Pairwise.filter _ ht

theorem Ordered.override {lower : Table α} (hl : Ordered lower) (upper : Table α) :
    Ordered (lower.override upper) := by
  unfold Table.override
  induction upper generalizing lower with
  | nil => exact hl
  | cons e rest ih => exact ih (hl.insert e.1 e.2)

theorem find?_erase (t : Table α) (name key : String) :
    (t.erase name).find? key = if key = name then none else t.find? key := by
  induction t with
  | nil => simp [erase]
  | cons head rest ih =>
    obtain ⟨n, v⟩ := head
    simp only [erase] at ih
    by_cases hn : n = name
    · subst hn
      rw [erase, List.filter_cons_of_neg (by simp), ih, find?_cons]
      by_cases hk : key = n <;> simp [hk]
    · rw [erase, List.filter_cons_of_pos (by simpa using hn), find?_cons, find?_cons, ih]
      by_cases hk : key = n
      · subst hk
        simp [hn]
      · simp [hk]

theorem mem_of_find? {t : Table α} {name : String} {value : α} (h : t.find? name = some value) :
    (name, value) ∈ t := by
  induction t with
  | nil => simp at h
  | cons head rest ih =>
    obtain ⟨n, v⟩ := head
    rw [find?_cons] at h
    split_ifs at h with hn
    · subst hn
      obtain rfl := Option.some.inj h
      exact List.mem_cons_self
    · exact List.mem_cons_of_mem _ (ih h)

/-- Nothing is found under a name that comes before all others. -/
theorem find?_of_forall_lt {t : Table α} {name : String} (h : ∀ e ∈ t, name < e.1) :
    t.find? name = none := by
  cases hf : t.find? name with
  | none => rfl
  | some value => exact (lt_irrefl name (h _ (mem_of_find? hf))).elim

theorem Ordered.mem_iff {t : Table α} (ht : Ordered t) {name : String} {value : α} :
    (name, value) ∈ t ↔ t.find? name = some value := by
  refine ⟨fun h => ?_, mem_of_find?⟩
  induction t with
  | nil => simp at h
  | cons head rest ih =>
    obtain ⟨n, v⟩ := head
    obtain ⟨hhead, hrest⟩ := List.pairwise_cons.mp ht
    rw [find?_cons]
    rcases List.mem_cons.mp h with he | hm
    · obtain ⟨rfl, rfl⟩ := Prod.mk.inj he
      simp
    · have hne : name ≠ n := (hhead _ hm).ne'
      simp only [hne, if_false]
      exact ih hrest hm

/-- Nothing is found under a name that comes before the first one. -/
theorem Ordered.find?_of_lt {t : Table α} {n m : String} {v : α} (ht : Ordered ((m, v) :: t))
    (hn : n < m) : find? ((m, v) :: t) n = none := by
  apply find?_of_forall_lt
  intro e he
  rcases List.mem_cons.mp he with rfl | he
  · exact hn
  · exact lt_trans hn ((List.pairwise_cons.mp ht).1 e he)

/-- Tables in order are told apart by what is found in them. -/
theorem ext_of_ordered {s t : Table α} (hs : Ordered s) (ht : Ordered t)
    (h : ∀ name, s.find? name = t.find? name) : s = t := by
  induction s generalizing t with
  | nil =>
    cases t with
    | nil => rfl
    | cons head rest =>
      obtain ⟨n, v⟩ := head
      have hn := h n
      simp [find?_cons] at hn
  | cons a s ih =>
    obtain ⟨n, v⟩ := a
    obtain ⟨hhead, hrest⟩ := List.pairwise_cons.mp hs
    have hv := h n
    simp only [find?_cons, if_true] at hv
    cases t with
    | nil => simp at hv
    | cons b t =>
      obtain ⟨m, w⟩ := b
      obtain ⟨hhead', hrest'⟩ := List.pairwise_cons.mp ht
      have hnm : n = m := by
        rcases lt_trichotomy n m with hlt | heq | hlt
        · rw [ht.find?_of_lt hlt] at hv
          simp at hv
        · exact heq
        · have hm := h m
          rw [hs.find?_of_lt hlt] at hm
          simp [find?_cons] at hm
      subst hnm
      simp only [find?_cons, if_true, Option.some.injEq] at hv
      subst hv
      have hst : s = t := by
        refine ih hrest hrest' fun name => ?_
        by_cases hn : name = n
        · subst hn
          rw [find?_of_forall_lt hhead, find?_of_forall_lt hhead']
        · have hname := h name
          simpa [find?_cons, hn] using hname
      rw [hst]

theorem find?_override (lower : Table α) {upper : Table α} (hu : Ordered upper) (key : String) :
    (lower.override upper).find? key = (upper.find? key).or (lower.find? key) := by
  unfold override
  induction upper generalizing lower with
  | nil => simp
  | cons head rest ih =>
    obtain ⟨n, v⟩ := head
    obtain ⟨hhead, hrest⟩ := List.pairwise_cons.mp hu
    rw [List.foldl_cons, ih _ hrest, find?_insert, find?_cons]
    by_cases hk : key = n
    · subst hk
      simp [find?_of_forall_lt hhead]
    · simp [hk]

theorem override_nil {t : Table α} (ht : Ordered t) : override [] t = t :=
  ext_of_ordered (ordered_nil.override t) ht fun name => by simp [find?_override [] ht]

/-! ## Tables from lists -/

theorem find?_append (s t : Table α) (name : String) :
    find? (s ++ t) name = (s.find? name).or (t.find? name) := List.lookup_append

/-- Of the values given under one name the last is found. -/
theorem find?_override_list (lower : Table α) (entries : List (String × α)) (name : String) :
    (lower.override entries).find? name = (find? entries.reverse name).or (lower.find? name) := by
  induction entries generalizing lower with
  | nil => simp [override]
  | cons e rest ih =>
    obtain ⟨n, v⟩ := e
    have hrest := ih (lower.insert n v)
    rw [override] at hrest ⊢
    rw [List.foldl_cons, hrest, List.reverse_cons, find?_append, find?_insert, find?_cons,
      Option.or_assoc]
    by_cases hn : name = n
    · simp [hn]
    · simp [hn]

theorem find?_ofList (entries : List (String × α)) (name : String) :
    (ofList entries).find? name = find? entries.reverse name := by
  have h := find?_override_list [] entries name
  rwa [find?_nil, Option.or_none] at h

theorem ordered_ofList (entries : List (String × α)) : Ordered (ofList entries) :=
  ordered_nil.override entries

theorem Ordered.names {t : Table α} (ht : Ordered t) : t.names.Pairwise (· < ·) :=
  List.pairwise_map.mpr ht

theorem mem_names {t : Table α} {name : String} :
    name ∈ t.names ↔ ∃ value, (name, value) ∈ t := by
  simp [Table.names]

end Supervisor.Table
