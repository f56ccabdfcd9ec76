import Supervisor.Proofs.Json.Place
/-!
# Inside a value

What holds of a value and of all values inside, how deep a value is nested, and the values that
reading leaves behind: their whole numbers fit 64 bits and their members are in order.
-/
namespace Supervisor.Json

variable {P Q : Json → Prop}

/-! ## Everywhere in a value -/

mutual

/-- `P` holds of the value and of every value inside. -/
def Every (P : Json → Prop) : Json → Prop
  | .array items => P (.array items) ∧ EveryItem P items
  | .object ms => P (.object ms) ∧ EveryMember P ms
  | j => P j

def EveryItem (P : Json → Prop) : List Json → Prop
  | [] => True
  | j :: rest => Every P j ∧ EveryItem P rest

def EveryMember (P : Json → Prop) : List (String × Json) → Prop
  | [] => True
  | (_, j) :: rest => Every P j ∧ EveryMember P rest

end

theorem everyItem_iff {items : List Json} : EveryItem P items ↔ ∀ j ∈ items, j.Every P := by
  induction items with
  | nil => simp [EveryItem]
  | cons j rest ih => simp [EveryItem, ih]

theorem everyMember_iff {ms : List (String × Json)} : EveryMember P ms ↔ ∀ e ∈ ms, e.2.Every P := by
  induction ms with
  | nil => simp [EveryMember]
  | cons e rest ih =>
    obtain ⟨n, j⟩ := e
    simp only [EveryMember, ih, List.forall_mem_cons]

theorem every_array {items : List Json} :
    (array items).Every P ↔ P (.array items) ∧ ∀ j ∈ items, j.Every P := by
  rw [Every, everyItem_iff]

theorem every_object {ms : List (String × Json)} :
    (object ms).Every P ↔ P (.object ms) ∧ ∀ e ∈ ms, e.2.Every P := by
  rw [Every, everyMember_iff]

theorem Every.here {j : Json} (h : j.Every P) : P j := by
  cases j with
  | array items => exact h.1
  | object ms => exact h.1
  | _ => simpa [Every] using h

mutual

theorem Every.mono (hPQ : ∀ j, P j → Q j) : ∀ {j : Json}, j.Every P → j.Every Q
  | .array _, h => ⟨hPQ _ h.1, EveryItem.mono hPQ h.2⟩
  | .object _, h => ⟨hPQ _ h.1, EveryMember.mono hPQ h.2⟩
  | .null, h | .bool _, h | .number _, h | .string _, h => by
    simp only [Every] at h ⊢
    exact hPQ _ h

theorem EveryItem.mono (hPQ : ∀ j, P j → Q j) :
    ∀ {items : List Json}, EveryItem P items → EveryItem Q items
  | [], _ => trivial
  | _ :: _, h => ⟨Every.mono hPQ h.1, EveryItem.mono hPQ h.2⟩

theorem EveryMember.mono (hPQ : ∀ j, P j → Q j) :
    ∀ {ms : List (String × Json)}, EveryMember P ms → EveryMember Q ms
  | [], _ => trivial
  | (_, _) :: _, h => ⟨Every.mono hPQ h.1, EveryMember.mono hPQ h.2⟩

end

/-! ## Numbers and members -/

/-- The value is no double. -/
def Whole : Json → Prop
  | .number (.double _) => False
  | _ => True

/-- A whole number fits 64 bits, with its sign. -/
def Fitting : Json → Prop
  | .number (.whole z) => -(Nat.pow 2 63 : Nat) ≤ z ∧ z < (Nat.pow 2 64 : Nat)
  | _ => True

def Sorted : Json → Prop
  | .object ms => Table.Ordered ms
  | _ => True

/-- What reading sees to at every value. -/
structure Sound (j : Json) : Prop where
  fitting : j.Fitting
  sorted : j.Sorted

theorem sound_object {ms : Table Json} (h : ms.Ordered) : Sound (.object ms) := ⟨trivial, h⟩

theorem hereditary_sound : Hereditary (Every Sound) where
  members h := (every_object.mp h).2
  insert h name j hj := by
    obtain ⟨hs, hms⟩ := every_object.mp h
    refine every_object.mpr ⟨sound_object (Table.Ordered.insert hs.sorted name j), fun e he => ?_⟩
    rcases Table.mem_insert he with rfl | he
    · exact hj
    · exact hms e he

theorem every_empty : (object []).Every Sound :=
  every_object.mpr ⟨sound_object Table.ordered_nil, by simp⟩

theorem sortedMembers_eq_override {ms : List (String × Json)} (h : ∀ e ∈ ms, e.2.sorted = e.2)
    (t : Table Json) : sortedMembers ms t = Table.override t ms := by
  induction ms generalizing t with
  | nil => rfl
  | cons e rest ih =>
    obtain ⟨n, j⟩ := e
    obtain ⟨hj, hrest⟩ := List.forall_mem_cons.mp h
    rw [sortedMembers, hj, ih hrest]
    rfl

mutual

/-- A value that was read is in order already. -/
theorem Every.sorted_eq : ∀ {j : Json}, j.Every Sound → j.sorted = j
  | .array items, h => by rw [Json.sorted, EveryItem.sorted_eq h.2]
  | .object ms, h => by
    rw [Json.sorted, sortedMembers_eq_override (EveryMember.sorted_eq h.2),
      Table.override_nil h.1.sorted]
  | .null, _ | .bool _, _ | .number _, _ | .string _, _ => by simp [Json.sorted]

theorem EveryItem.sorted_eq : ∀ {items : List Json}, EveryItem Sound items → sortedItems items = items
  | [], _ => rfl
  | j :: rest, h => by rw [sortedItems, Every.sorted_eq h.1, EveryItem.sorted_eq h.2]

theorem EveryMember.sorted_eq : ∀ {ms : List (String × Json)}, EveryMember Sound ms →
    ∀ e ∈ ms, e.2.sorted = e.2
  | [], _ => by simp
  | (n, j) :: rest, h =>
    List.forall_mem_cons.mpr ⟨Every.sorted_eq h.1, EveryMember.sorted_eq h.2⟩

end

/-! ## Depth -/

mutual

/-- How many arrays and objects stand inside each other. -/
def nesting : Json → Nat
  | .array items => nestingItems items + 1
  | .object ms => nestingMembers ms + 1
  | _ => 0

def nestingItems : List Json → Nat
  | [] => 0
  | j :: rest => max (nesting j) (nestingItems rest)

def nestingMembers : List (String × Json) → Nat
  | [] => 0
  | (_, j) :: rest => max (nesting j) (nestingMembers rest)

end

theorem nestingItems_le {items : List Json} {n : Nat} :
    nestingItems items ≤ n ↔ ∀ j ∈ items, j.nesting ≤ n := by
  induction items with
  | nil => simp [nestingItems]
  | cons j rest ih => simp [nestingItems, ih]

theorem nestingMembers_le {ms : List (String × Json)} {n : Nat} :
    nestingMembers ms ≤ n ↔ ∀ e ∈ ms, e.2.nesting ≤ n := by
  induction ms with
  | nil => simp [nestingMembers]
  | cons e rest ih =>
    obtain ⟨name, j⟩ := e
    simp only [nestingMembers, Nat.max_le, ih, List.forall_mem_cons]

/-! ## What is read is sound -/

theorem Numeral.absorb_le (limit : Nat) (ds : List Nat) {n : Nat} (hn : n ≤ limit) :
    (absorb limit n ds).1 ≤ limit := by
  induction ds generalizing n with
  | nil => simpa [absorb] using hn
  | cons d rest ih =>
    unfold absorb
    split_ifs with h
    · exact ih h
    · exact hn

theorem Numeral.fitting_of_double {negative : Bool} {digits : Nat} {power : Int} {x : Number}
    (h : double negative digits power = .ok x) : Fitting (.number x) := by
  unfold double at h
  split at h
  · cases h
    trivial
  · cases h

theorem Numeral.value_fitting {n : Numeral} {x : Number} (h : n.value = .ok x) :
    Fitting (.number x) := by
  have hpow : Nat.pow 2 63 = 9223372036854775808 := rfl
  have hpow' : Nat.pow 2 64 = 18446744073709551616 := rfl
  have hlimit : wordLimit = 18446744073709551615 := rfl
  have hdigits : n.significand.1 ≤ wordLimit := absorb_le _ _ (absorb_le _ _ (Nat.zero_le _))
  unfold value at h
  simp only [beq_iff_eq, Bool.or_eq_true, decide_eq_true_eq] at h
  split_ifs at h with hwhole hneg hdouble
  · cases h
    constructor <;> omega
  · exact fitting_of_double h
  · cases h
    constructor <;> omega
  · split at h
    · exact fitting_of_double h
    · split_ifs at h
      · exact fitting_of_double h
      · exact fitting_of_double h
      · cases h
        trivial

namespace Outline

mutual

theorem readAny_sound {depth : Nat} : ∀ {o : Outline} {j : Json}, o.readAny depth = .ok j →
    j.Every Sound
  | .object members wrongName e, j, h => by
    simp only [readAny, bind_eq_ok] at h
    obtain ⟨depth, -, ms, hms, _, -, h⟩ := h
    cases h
    exact readMembers_sound hms every_empty
  | .array items e, j, h => by
    simp only [readAny, bind_eq_ok] at h
    obtain ⟨depth, -, js, hjs, _, -, h⟩ := h
    cases h
    exact every_array.mpr ⟨⟨trivial, trivial⟩, readItems_sound hjs⟩
  | .number n, j, h => by
    obtain ⟨x, hx, rfl⟩ := map_eq_ok.mp h
    cases hv : n.value with
    | ok y =>
      obtain rfl : y = x := by simpa [hv, mishap] using hx
      simpa only [Every] using ⟨Numeral.value_fitting hv, trivial⟩
    | error m => simp [hv, mishap] at hx
  | .string b, j, h => by
    obtain ⟨a, -, rfl⟩ := map_eq_ok.mp h
    simpa only [Every] using ⟨trivial, trivial⟩
  | .null, j, h | .bool b, j, h => by
    cases h
    simpa only [Every] using ⟨trivial, trivial⟩
  | .bad b, j, h | .missing m, j, h => by simp [readAny] at h

theorem readItems_sound {depth : Nat} : ∀ {js : List Json} {items : List Outline},
    readItems depth items = .ok js → ∀ j ∈ js, j.Every Sound
  | js, [], h => by
    cases h
    simp
  | js, o :: rest, h => by
    simp only [readItems, bind_eq_ok] at h
    obtain ⟨j, hj, js', hjs, h⟩ := h
    cases h
    exact List.forall_mem_cons.mpr ⟨readAny_sound hj, readItems_sound hjs⟩

theorem readMembers_sound {depth : Nat} : ∀ {members : List (StringBody × Outline)}
    {t ms : Table Json}, readMembers depth members t = .ok ms → (Json.object t).Every Sound →
    (Json.object ms).Every Sound
  | [], t, ms, h, ht => by
    cases h
    exact ht
  | (b, o) :: rest, t, ms, h, ht => by
    simp only [readMembers, bind_eq_ok] at h
    obtain ⟨name, -, j, hj, h⟩ := h
    exact readMembers_sound h (hereditary_sound.insert ht name (readAny_sound hj))

end

end Outline

theorem ofString_sound {text : String} {j : Json} (h : ofString text = .ok j) : j.Every Sound :=
  Outline.readAny_sound (Document.finish_eq_ok.mp h).1

end Supervisor.Json
