import Supervisor.Json.Reader
import Supervisor.Proofs.Table
/-!
# Places in JSON values

A place is a list of names that leads down through objects. A value is tidy if every object at a
place of it has its members in order; what is read from a text is tidy.
-/
namespace Supervisor

/-! ## Results -/

section
variable {ε α β : Type}

theorem bind_eq_ok {x : Except ε α} {f : α → Except ε β} {b : β} :
    x >>= f = .ok b ↔ ∃ a, x = .ok a ∧ f a = .ok b := by
  cases x <;> simp [bind, Except.bind]

theorem map_eq_ok {x : Except ε α} {f : α → β} {b : β} :
    x.map f = .ok b ↔ ∃ a, x = .ok a ∧ f a = b := by
  cases x <;> simp [Except.map]

end

namespace Json

/-! ## Places -/

/-- What stands at a place. -/
def at? : Json → List String → Option Json
  | j, [] => some j
  | j, name :: rest => (j.member? name).bind (·.at? rest)

/-- The value without the member `name` of the object at a place. -/
def without (name : String) : List String → Json → Json
  | [], .object ms => .object (Table.erase name ms)
  | n :: rest, .object ms =>
    match Table.find? ms n with
    | some j => .object (Table.insert n (without name rest j) ms)
    | none => .object ms
  | _, j => j

/-- Every object at a place has its members in order. -/
def Tidy (j : Json) : Prop := ∀ place ms, j.at? place = some (.object ms) → Table.Ordered ms

@[simp] theorem at?_nil (j : Json) : j.at? [] = some j := by
  cases j <;> rfl

theorem at?_cons (j : Json) (name : String) (rest : List String) :
    j.at? (name :: rest) = (j.member? name).bind (·.at? rest) := by
  cases j <;> rfl

@[simp] theorem at?_null_cons (name : String) (rest : List String) :
    null.at? (name :: rest) = none := rfl

@[simp] theorem at?_object_cons (ms : Table Json) (name : String) (rest : List String) :
    (object ms).at? (name :: rest) = (ms.find? name).bind (·.at? rest) := rfl

theorem at?_append (j : Json) (place rest : List String) :
    j.at? (place ++ rest) = (j.at? place).bind (·.at? rest) := by
  induction place generalizing j with
  | nil => simp
  | cons name place ih => cases h : j.member? name <;> simp [at?_cons, h, ih]

theorem exists_object_of_at?_cons {j v : Json} {name : String} {rest : List String}
    (h : j.at? (name :: rest) = some v) :
    ∃ ms m, j = .object ms ∧ Table.find? ms name = some m ∧ m.at? rest = some v := by
  cases j with
  | object ms =>
    obtain ⟨m, hm, hv⟩ := Option.bind_eq_some_iff.mp h
    exact ⟨ms, m, rfl, hm, hv⟩
  | _ => simp [at?_cons, member?] at h

/-- A value with something below it is not null. -/
theorem ne_null_of_at?_append {j v : Json} {place : List String} {name : String}
    (h : j.at? (place ++ [name]) = some v) : j ≠ .null := by
  rintro rfl
  cases place <;> simp at h

/-! ## Tidy values -/

theorem Tidy.ordered {ms : Table Json} (h : Tidy (.object ms)) : ms.Ordered := h [] ms (at?_nil _)

theorem Tidy.of_find? {ms : Table Json} (h : Tidy (.object ms)) {name : String} {j : Json}
    (hj : ms.find? name = some j) : j.Tidy := by
  intro place ms' hms'
  exact h (name :: place) ms' (by simp [hj, hms'])

theorem tidy_object {ms : Table Json} (ho : ms.Ordered)
    (hm : ∀ name j, ms.find? name = some j → j.Tidy) : Tidy (.object ms) := by
  intro place ms' h
  cases place with
  | nil =>
    obtain rfl : ms = ms' := by simpa using h
    exact ho
  | cons name rest =>
    obtain ⟨_, j, hj, hf, hrest⟩ := exists_object_of_at?_cons h
    obtain rfl : ms = _ := by simpa using hj
    exact hm name j hf rest ms' hrest

theorem tidy_of_not_object {j : Json} (h : ∀ ms, j ≠ .object ms) : j.Tidy := by
  intro place ms hms
  cases place with
  | nil => exact (h ms (by simpa using hms)).elim
  | cons name rest =>
    obtain ⟨ms', _, rfl, -⟩ := exists_object_of_at?_cons hms
    exact (h ms' rfl).elim

theorem tidy_empty : Tidy (.object []) := tidy_object Table.ordered_nil (by simp)

theorem Tidy.insert {ms : Table Json} (h : Tidy (.object ms)) (name : String) {j : Json}
    (hj : j.Tidy) : Tidy (.object (ms.insert name j)) := by
  refine tidy_object (h.ordered.insert name j) fun key v hv => ?_
  rw [Table.find?_insert] at hv
  split_ifs at hv
  · obtain rfl := Option.some.inj hv
    exact hj
  · exact h.of_find? hv

/-- A law of values that holds of every member of an object, and that a new member keeps. -/
structure Hereditary (P : Json → Prop) : Prop where
  members : ∀ {ms}, P (.object ms) → ∀ e ∈ ms, P e.2
  insert : ∀ {ms}, P (.object ms) → ∀ name {j}, P j → P (.object (Table.insert name j ms))

theorem Hereditary.of_find? {P : Json → Prop} (hP : Hereditary P) {ms : Table Json}
    (h : P (.object ms)) {name : String} {j : Json} (hj : ms.find? name = some j) : P j :=
  hP.members h _ (Table.mem_of_find? hj)

theorem hereditary_tidy : Hereditary Tidy where
  members h _ he := h.of_find? (h.ordered.mem_iff.mp he)
  insert h name _ hj := h.insert name hj

theorem without_object_cons {ms : Table Json} {n name : String} {rest : List String} {m : Json}
    (hm : ms.find? n = some m) :
    (object ms).without name (n :: rest) = .object (ms.insert n (m.without name rest)) := by
  simp [without, hm]

theorem without_ne_null {j : Json} (h : j ≠ .null) (name : String) (place : List String) :
    j.without name place ≠ .null := by
  cases place <;> cases j <;> simp only [without] at h ⊢ <;> try split
  all_goals simp_all

theorem Tidy.without {j : Json} (h : j.Tidy) (name : String) (place : List String) :
    (j.without name place).Tidy := by
  induction place generalizing j with
  | nil =>
    cases j with
    | object ms =>
      refine tidy_object (h.ordered.erase name) fun key v hv => ?_
      rw [Table.find?_erase] at hv
      split_ifs at hv
      exact h.of_find? hv
    | _ => exact h
  | cons n rest ih =>
    cases j with
    | object ms =>
      cases hm : Table.find? ms n with
      | none => simpa [Json.without, hm] using h
      | some m =>
        rw [without_object_cons hm]
        exact h.insert n (ih (h.of_find? hm))
    | _ => exact h

/-! ## What is read is tidy -/

namespace Outline

mutual

theorem readAny_tidy {depth : Nat} : ∀ {o : Outline} {j : Json}, o.readAny depth = .ok j → j.Tidy
  | .object members wrongName e, j, h => by
    simp only [readAny, bind_eq_ok] at h
    obtain ⟨depth, -, ms, hms, _, -, h⟩ := h
    cases h
    exact readMembers_tidy hms tidy_empty
  | .array items e, j, h => by
    simp only [readAny, bind_eq_ok] at h
    obtain ⟨depth, -, js, -, _, -, h⟩ := h
    cases h
    exact tidy_of_not_object (by simp)
  | .number n, j, h => by
    obtain ⟨a, -, rfl⟩ := map_eq_ok.mp h
    exact tidy_of_not_object (by simp)
  | .string b, j, h => by
    obtain ⟨a, -, rfl⟩ := map_eq_ok.mp h
    exact tidy_of_not_object (by simp)
  | .null, j, h | .bool b, j, h => by
    cases h
    exact tidy_of_not_object (by simp)
  | .bad b, j, h | .missing m, j, h => by simp [readAny] at h

theorem readMembers_tidy {depth : Nat} : ∀ {members : List (StringBody × Outline)} {t ms : Table Json},
    readMembers depth members t = .ok ms → Tidy (.object t) → Tidy (.object ms)
  | [], t, ms, h, ht => by
    cases h
    exact ht
  | (b, o) :: rest, t, ms, h, ht => by
    simp only [readMembers, bind_eq_ok] at h
    obtain ⟨name, -, j, hj, h⟩ := h
    exact readMembers_tidy h (ht.insert name (readAny_tidy hj))

end

end Outline

theorem Document.finish_eq_ok {α : Type} {d : Document} {x : Except ReadError α} {a : α} :
    d.finish x = .ok a ↔ x = .ok a ∧ d.trailing = false := by
  cases x <;> cases h : d.trailing <;> simp [finish, h, bind, Except.bind]

theorem ofString_tidy {text : String} {j : Json} (h : ofString text = .ok j) : j.Tidy :=
  Outline.readAny_tidy (Document.finish_eq_ok.mp h).1

end Json

end Supervisor
