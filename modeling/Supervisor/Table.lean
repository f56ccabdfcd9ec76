/-!
# Tables

Finite maps from names to values, kept as lists in ascending order of the names. The order of
names is that of their code points.
-/
namespace Supervisor

abbrev Table (α : Type) := List (String × α)

namespace Table
variable {α β : Type}

def find? (t : Table α) (name : String) : Option α := t.lookup name

def contains (t : Table α) (name : String) : Bool := (t.find? name).isSome

def insert (name : String) (value : α) : Table α → Table α
  | [] => [(name, value)]
  | (n, v) :: rest =>
    if name = n then (name, value) :: rest
    else if name < n then (name, value) :: (n, v) :: rest
    else (n, v) :: insert name value rest

def erase (name : String) (t : Table α) : Table α := t.filter (·.1 != name)

/-- Later entries win. -/
def ofList (entries : List (String × α)) : Table α :=
  entries.foldl (fun t (n, v) => t.insert n v) []

/-- The entries of both; those of `upper` win. -/
def override (lower upper : Table α) : Table α :=
  upper.foldl (fun t (n, v) => t.insert n v) lower

def names (t : Table α) : List String := t.map (·.1)

@[simp] theorem find?_nil (name : String) : find? ([] : Table α) name = none := rfl

theorem find?_insert (t : Table α) (name key : String) (value : α) :
    (t.insert name value).find? key = if key = name then some value else t.find? key := by
  induction t with
  | nil =>
    by_cases h : key = name
    · simp [insert, find?, h]
    · simp [insert, find?, List.lookup_cons, h, beq_eq_false_iff_ne.mpr h]
  | cons e rest ih =>
    obtain ⟨n, v⟩ := e
    simp only [find?] at ih
    unfold insert
    by_cases hn : name = n
    · subst hn
      by_cases h : key = name
      · simp [find?, h]
      · simp [find?, List.lookup_cons, h, beq_eq_false_iff_ne.mpr h]
    · by_cases hl : name < n
      · by_cases h : key = name
        · simp [hn, hl, find?, h]
        · simp [hn, hl, find?, List.lookup_cons, h, beq_eq_false_iff_ne.mpr h]
      · by_cases hk : key = n
        · subst hk
          have : key ≠ name := fun h => hn h.symm
          simp [hn, hl, find?, this]
        · simp [hn, hl, find?, List.lookup_cons, beq_eq_false_iff_ne.mpr hk, ih]

end Table

end Supervisor
