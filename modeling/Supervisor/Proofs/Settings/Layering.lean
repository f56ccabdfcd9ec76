import Supervisor.Settings.Layers
import Supervisor.Proofs.Json.Place
/-!
# Laws of layers

What stands at a place of merged layers follows from what the layers have there. A null of a layer
is dropped where the layers below it have the object around it; where they have not, it stays until
an upper layer says something in its place.
-/
namespace Supervisor

namespace Json

/-- Is there an object at a place? -/
def hasObject (place : List String) (j : Json) : Bool := (j.at? place).any isObject

/-- Does a layer leave alone a value at a place below it? -/
def passes : List String → Json → Bool
  | _, .null => true
  | n :: rest, .object ms =>
    match Table.find? ms n with
    | some j => passes rest j
    | none => true
  | _, _ => false

theorem isObject_iff {j : Json} : j.isObject = true ↔ ∃ ms, j = .object ms := by
  cases j <;> simp [isObject]

theorem hasObject_nil {j : Json} : j.hasObject [] = true ↔ ∃ ms, j = .object ms := by
  simp [hasObject, isObject_iff]

theorem hasObject_object_cons {ms : Table Json} {n : String} {rest : List String} :
    (object ms).hasObject (n :: rest) = (ms.find? n).any (·.hasObject rest) := by
  cases h : ms.find? n <;> simp [hasObject, h]

theorem exists_object_of_hasObject_cons {j : Json} {n : String} {rest : List String}
    (h : j.hasObject (n :: rest) = true) :
    ∃ ms m, j = .object ms ∧ Table.find? ms n = some m ∧ m.hasObject rest = true := by
  cases j with
  | object ms =>
    rw [hasObject_object_cons] at h
    cases hm : Table.find? ms n with
    | none => simp [hm] at h
    | some m => exact ⟨ms, m, rfl, hm, by simpa [hm] using h⟩
  | _ => simp [hasObject, at?_cons, member?] at h

theorem eq_null_of_passes_nil {j : Json} (h : j.passes [] = true) : j = .null := by
  cases j <;> simp [passes] at h ⊢

theorem eq_null_or_object_of_passes {j : Json} {place : List String} (h : j.passes place = true) :
    j = .null ∨ ∃ ms, j = .object ms := by
  cases place <;> cases j <;> simp [passes] at h ⊢

theorem passes_of_find? {ms : Table Json} {n : String} {rest : List String} {j : Json}
    (hj : ms.find? n = some j) : (object ms).passes (n :: rest) = j.passes rest := by
  simp [passes, hj]

theorem passes_of_missing {ms : Table Json} {n : String} (hn : ms.find? n = none)
    (rest : List String) : (object ms).passes (n :: rest) = true := by
  simp [passes, hn]

theorem passes_null (place : List String) : null.passes place = true := by
  cases place <;> rfl

theorem ne_null_of_not_passes {j : Json} {place : List String} (h : ¬ j.passes place = true) :
    j ≠ .null := by
  rintro rfl
  exact h (passes_null place)

theorem object_congr {ms ms' : Table Json} (h : ms.Ordered) (h' : ms'.Ordered)
    (hfind : ∀ name, ms.find? name = ms'.find? name) : object ms = .object ms' := by
  rw [Table.ext_of_ordered h h' hfind]

end Json

namespace Settings
open Json

variable {base layer upper x y : Json} {below above : List Json} {place : List String} {name : String}

/-! ## Merged members -/

/-- A member of merged objects, from the members of the lower and of the upper one. -/
def overlaid : Option Json → Option Json → Option Json
  | old, none => old
  | some old, some j => some (merge old j)
  | none, some j => if j.isNull then none else some j

@[simp] theorem overlaid_none (old : Option Json) : overlaid old none = old := by cases old <;> rfl

@[simp] theorem overlaid_null (old : Option Json) : overlaid old (some .null) = old := by
  cases old <;> simp [overlaid, isNull, merge_null]

@[simp] theorem overlaid_some (old j : Json) : overlaid (some old) (some j) = some (merge old j) := rfl

theorem isNull_eq_false {j : Json} (h : j ≠ .null) : j.isNull = false := by
  cases j <;> simp_all [isNull]

theorem overlaid_new {j : Json} (h : j ≠ .null) : overlaid none (some j) = some j := by
  simp [overlaid, isNull_eq_false h]

theorem mergeMembers_cons (below : Table Json) (n : String) (j : Json) (rest : Table Json) :
    mergeMembers below ((n, j) :: rest) =
      mergeMembers (match overlaid (below.find? n) (some j) with
        | some v => below.insert n v
        | none => below) rest := by
  simp only [mergeMembers]
  cases below.find? n with
  | some old => rfl
  | none =>
    by_cases h : j.isNull <;> simp [overlaid, h]

theorem find?_mergeMembers {below ms : Table Json} (ho : ms.Ordered) (key : String) :
    (mergeMembers below ms).find? key = overlaid (below.find? key) (ms.find? key) := by
  induction ms generalizing below with
  | nil => simp [mergeMembers]
  | cons e rest ih =>
    obtain ⟨n, j⟩ := e
    obtain ⟨hfirst, hrest⟩ := List.pairwise_cons.mp ho
    rw [mergeMembers_cons, ih hrest, Table.find?_cons]
    by_cases hk : key = n
    · subst hk
      rw [Table.find?_of_forall_lt hfirst, overlaid_none, if_pos rfl]
      cases h : overlaid (below.find? key) (some j) with
      | some v => simp [Table.find?_insert]
      | none =>
        cases hb : below.find? key with
        | none => rfl
        | some old => simp [hb] at h
    · rw [if_neg hk]
      cases overlaid (below.find? n) (some j) <;> simp [Table.find?_insert, hk]

theorem merge_objects (bs ms : Table Json) :
    merge (.object bs) (.object ms) = .object (mergeMembers bs ms) := by
  simp [merge]

theorem merge_object_of_not_object {ms : Table Json} (h : ¬ ∃ bs, base = .object bs) :
    merge base (.object ms) = .object ms := by
  cases base <;> simp_all [merge]

theorem merge_eq_layer (hnull : layer ≠ .null) (hobject : ¬ ∃ ms, layer = .object ms) :
    merge base layer = layer := by
  cases layer <;> simp_all [merge]

theorem merge_onto_null (j : Json) : merge .null j = j := by
  cases j <;> simp [merge]

theorem merge_ne_null (h : layer ≠ .null) : merge base layer ≠ .null := by
  cases layer <;> cases base <;> simp_all [merge]

section
variable {P : Json → Prop}

mutual

/-- A law that new members keep is kept by merging. -/
theorem merge_keeps (hP : Hereditary P) : ∀ {base layer : Json}, P base → P layer →
    P (merge base layer)
  | base, .null, hb, _ => by rwa [merge_null]
  | base, .object ms, hb, hl => by
    cases base with
    | object bs => simpa [merge] using mergeMembers_keeps hP hb (hP.members hl)
    | _ => simpa [merge] using hl
  | base, .bool _, _, hl | base, .number _, _, hl | base, .string _, _, hl | base, .array _, _, hl => by
    simpa [merge] using hl

theorem mergeMembers_keeps (hP : Hereditary P) : ∀ {below ms : Table Json}, P (.object below) →
    (∀ e ∈ ms, P e.2) → P (.object (mergeMembers below ms))
  | below, [], hb, _ => by simpa [mergeMembers] using hb
  | below, (n, j) :: rest, hb, hm => by
    have hj : P j := hm _ List.mem_cons_self
    have hrest : ∀ e ∈ rest, P e.2 := fun e he => hm e (List.mem_cons_of_mem _ he)
    simp only [mergeMembers]
    split
    · next old hold =>
      have hmerged := merge_keeps hP (hP.of_find? hb hold) hj
      exact mergeMembers_keeps hP (hP.insert hb n hmerged) hrest
    · split_ifs
      · exact mergeMembers_keeps hP hb hrest
      · exact mergeMembers_keeps hP (hP.insert hb n hj) hrest

end

theorem foldl_merge_keeps (hP : Hereditary P) (hx : P x) (ha : ∀ upper ∈ above, P upper) :
    P (above.foldl merge x) := by
  induction above generalizing x with
  | nil => exact hx
  | cons upper rest ih =>
    exact ih (merge_keeps hP hx (ha upper List.mem_cons_self))
      fun u hu => ha u (List.mem_cons_of_mem _ hu)

end

theorem merge_tidy {base layer : Json} (hb : base.Tidy) (hl : layer.Tidy) : (merge base layer).Tidy :=
  merge_keeps hereditary_tidy hb hl

theorem mergeMembers_ordered {bs ms : Table Json} (hb : Tidy (.object bs)) (hm : Tidy (.object ms)) :
    (mergeMembers bs ms).Ordered := by
  have h := merge_tidy hb hm
  simp only [merge] at h
  exact h.ordered

section
variable {a b a' b' : Table Json}

/-- Merged objects are told apart by the merged members. -/
theorem merge_congr (ha : Tidy (.object a)) (hb : Tidy (.object b)) (ha' : Tidy (.object a'))
    (hb' : Tidy (.object b'))
    (h : ∀ key, overlaid (a.find? key) (b.find? key) = overlaid (a'.find? key) (b'.find? key)) :
    merge (.object a) (.object b) = merge (.object a') (.object b') := by
  simp only [merge]
  refine object_congr (mergeMembers_ordered ha hb) (mergeMembers_ordered ha' hb') fun key => ?_
  rw [find?_mergeMembers hb.ordered, find?_mergeMembers hb'.ordered, h key]

/-- Merged objects that differ under one name at most. -/
theorem merge_eq_insert (ha : Tidy (.object a)) (hb : Tidy (.object b)) (ha' : Tidy (.object a'))
    (hb' : Tidy (.object b')) {n : String} {v : Json}
    (hv : overlaid (a'.find? n) (b'.find? n) = some v)
    (h : ∀ key, key ≠ n →
      overlaid (a'.find? key) (b'.find? key) = overlaid (a.find? key) (b.find? key)) :
    merge (.object a') (.object b') = .object ((mergeMembers a b).insert n v) := by
  simp only [merge]
  refine object_congr (mergeMembers_ordered ha' hb') ((mergeMembers_ordered ha hb).insert n v)
    fun key => ?_
  rw [find?_mergeMembers hb'.ordered, Table.find?_insert, find?_mergeMembers hb.ordered]
  by_cases hk : key = n
  · simp [hk, hv]
  · simp [hk, h key hk]

end

/-! ## A null against what lies below -/

theorem merge_without_of_hasObject (hb : base.Tidy) (hl : layer.Tidy)
    (hobject : base.hasObject place = true) (hnull : layer.at? (place ++ [name]) = some .null) :
    merge base (layer.without name place) = merge base layer := by
  induction place generalizing base layer with
  | nil =>
    obtain ⟨bs, rfl⟩ := hasObject_nil.mp hobject
    obtain ⟨ms, m, rfl, hm, hmnull⟩ := exists_object_of_at?_cons hnull
    obtain rfl : m = .null := by simpa using hmnull
    refine merge_congr hb (hl.without name []) hb hl fun key => ?_
    rw [Table.find?_erase]
    by_cases hk : key = name <;> simp [hk, hm]
  | cons n rest ih =>
    obtain ⟨ms, m, rfl, hm, hmnull⟩ := exists_object_of_at?_cons hnull
    obtain ⟨bs, old, rfl, hold, hbelow⟩ := exists_object_of_hasObject_cons hobject
    have hl' := hl.without name (n :: rest)
    rw [without_object_cons hm] at hl' ⊢
    refine merge_congr hb hl' hb hl fun key => ?_
    rw [Table.find?_insert]
    by_cases hk : key = n
    · subst hk
      simp [hold, hm, ih (hb.of_find? hold) (hl.of_find? hm) hbelow hmnull]
    · simp [hk]

theorem merge_of_no_object (hb : base.Tidy) (hl : layer.Tidy) (hobject : ¬ base.hasObject place = true)
    (hnull : layer.at? (place ++ [name]) = some .null) :
    (merge base layer).at? (place ++ [name]) = some .null ∧
      merge base (layer.without name place) = (merge base layer).without name place := by
  induction place generalizing base layer with
  | nil =>
    obtain ⟨ms, m, rfl, hm, hmnull⟩ := exists_object_of_at?_cons hnull
    rw [hasObject_nil] at hobject
    rw [merge_object_of_not_object hobject]
    exact ⟨hnull, merge_object_of_not_object hobject⟩
  | cons n rest ih =>
    obtain ⟨ms, m, rfl, hm, hmnull⟩ := exists_object_of_at?_cons hnull
    have hl' := hl.without name (n :: rest)
    rw [without_object_cons hm] at hl' ⊢
    by_cases hbase : ∃ bs, base = .object bs
    · obtain ⟨bs, rfl⟩ := hbase
      -- what the merged object has under `n`, with the null and without it
      obtain ⟨v, hv, hvnull, hv'⟩ : ∃ v, overlaid (Table.find? bs n) (some m) = some v ∧
          v.at? (rest ++ [name]) = some .null ∧
          overlaid (Table.find? bs n) (some (m.without name rest)) =
            some (v.without name rest) := by
        have hne : m ≠ .null := ne_null_of_at?_append hmnull
        cases hold : Table.find? bs n with
        | none => exact ⟨m, overlaid_new hne, hmnull, overlaid_new (without_ne_null hne name rest)⟩
        | some old =>
          have hnot : ¬ old.hasObject rest = true := by
            simpa [hasObject_object_cons, hold] using hobject
          obtain ⟨h, h'⟩ := ih (hb.of_find? hold) (hl.of_find? hm) hnot hmnull
          exact ⟨merge old m, rfl, h, by rw [overlaid_some, h']⟩
      have hmerged : (mergeMembers bs ms).find? n = some v := by
        rw [find?_mergeMembers hl.ordered, hm, hv]
      refine ⟨by simpa [merge, hmerged] using hvnull, ?_⟩
      rw [merge_objects bs ms, without_object_cons hmerged]
      refine merge_eq_insert hb hl hb hl' (by simpa [Table.find?_insert] using hv') fun key hk => ?_
      simp [Table.find?_insert, hk]
    · rw [merge_object_of_not_object hbase, merge_object_of_not_object hbase]
      exact ⟨hnull, (without_object_cons hm).symm⟩

/-! ## A null against what lies above -/

theorem merge_of_passes (hx : x.Tidy) (hu : upper.Tidy)
    (hnull : x.at? (place ++ [name]) = some .null) (hp : upper.passes (place ++ [name]) = true) :
    (merge x upper).at? (place ++ [name]) = some .null ∧
      merge (x.without name place) upper = (merge x upper).without name place := by
  induction place generalizing x upper with
  | nil =>
    obtain ⟨xs, m, rfl, hm, hmnull⟩ := exists_object_of_at?_cons hnull
    obtain rfl : m = .null := by simpa using hmnull
    rcases eq_null_or_object_of_passes hp with rfl | ⟨us, rfl⟩
    · simpa [merge_null] using hm
    have hquiet : ∀ old, overlaid old (Table.find? us name) = old := by
      intro old
      cases hj : Table.find? us name with
      | none => simp
      | some j =>
        obtain rfl := eq_null_of_passes_nil ((passes_of_find? hj).symm.trans hp)
        simp
    refine ⟨by simp [merge_objects, find?_mergeMembers hu.ordered, hm, hquiet], ?_⟩
    simp only [without, merge_objects]
    refine object_congr (mergeMembers_ordered (hx.without name []) hu)
      ((mergeMembers_ordered hx hu).erase name) fun key => ?_
    rw [find?_mergeMembers hu.ordered, Table.find?_erase, Table.find?_erase,
      find?_mergeMembers hu.ordered]
    by_cases hk : key = name
    · subst hk
      simp [hquiet]
    · simp [hk]
  | cons n rest ih =>
    obtain ⟨xs, v, rfl, hv, hvnull⟩ := exists_object_of_at?_cons hnull
    rcases eq_null_or_object_of_passes hp with rfl | ⟨us, rfl⟩
    · simpa [merge_null, hv] using hvnull
    -- what the merged object has under `n`, with the null and without it
    obtain ⟨w, hw, hwnull, hw'⟩ : ∃ w, overlaid (some v) (Table.find? us n) = some w ∧
        w.at? (rest ++ [name]) = some .null ∧
        overlaid (some (v.without name rest)) (Table.find? us n) = some (w.without name rest) := by
      cases hj : Table.find? us n with
      | none => exact ⟨v, rfl, hvnull, rfl⟩
      | some j =>
        obtain ⟨h, h'⟩ := ih (hx.of_find? hv) (hu.of_find? hj) hvnull
          ((passes_of_find? hj).symm.trans hp)
        exact ⟨merge v j, rfl, h, by rw [overlaid_some, h']⟩
    have hmerged : (mergeMembers xs us).find? n = some w := by
      rw [find?_mergeMembers hu.ordered, hv, hw]
    have hx' := hx.without name (n :: rest)
    rw [without_object_cons hv] at hx' ⊢
    refine ⟨by simpa [merge_objects, hmerged] using hwnull, ?_⟩
    rw [merge_objects xs us, without_object_cons hmerged]
    refine merge_eq_insert hx hu hx' hu (by simpa [Table.find?_insert] using hw') fun key hk => ?_
    simp [Table.find?_insert, hk]

theorem merge_without_of_not_passes (hx : x.Tidy) (hu : upper.Tidy)
    (hnull : x.at? (place ++ [name]) = some .null) (hp : ¬ upper.passes (place ++ [name]) = true) :
    merge (x.without name place) upper = merge x upper := by
  induction place generalizing x upper with
  | nil =>
    obtain ⟨xs, m, rfl, hm, hmnull⟩ := exists_object_of_at?_cons hnull
    obtain rfl : m = .null := by simpa using hmnull
    by_cases hobject : ∃ us, upper = .object us
    · obtain ⟨us, rfl⟩ := hobject
      refine merge_congr (hx.without name []) hu hx hu fun key => ?_
      rw [Table.find?_erase]
      by_cases hk : key = name
      · subst hk
        cases hj : Table.find? us key with
        | none => exact (hp (passes_of_missing hj [])).elim
        | some j =>
          have hjne : j ≠ .null := by
            rintro rfl
            exact hp ((passes_of_find? hj).trans (passes_null _))
          simp [hm, overlaid_new hjne, merge_onto_null]
      · simp [hk]
    · rw [merge_eq_layer (ne_null_of_not_passes hp) hobject,
        merge_eq_layer (ne_null_of_not_passes hp) hobject]
  | cons n rest ih =>
    obtain ⟨xs, v, rfl, hv, hvnull⟩ := exists_object_of_at?_cons hnull
    by_cases hobject : ∃ us, upper = .object us
    · obtain ⟨us, rfl⟩ := hobject
      have hx' := hx.without name (n :: rest)
      rw [without_object_cons hv] at hx' ⊢
      refine merge_congr hx' hu hx hu fun key => ?_
      rw [Table.find?_insert]
      by_cases hk : key = n
      · subst hk
        cases hj : Table.find? us key with
        | none => exact (hp (passes_of_missing hj _)).elim
        | some j =>
          have hpj : ¬ j.passes (rest ++ [name]) = true := fun h => hp ((passes_of_find? hj).trans h)
          simp [hv, ih (hx.of_find? hv) (hu.of_find? hj) hvnull hpj]
      · simp [hk]
    · rw [merge_eq_layer (ne_null_of_not_passes hp) hobject,
        merge_eq_layer (ne_null_of_not_passes hp) hobject]

/-! ## A null among layers -/

theorem mergeAll_layers (below above : List Json) (layer : Json) :
    mergeAll (below ++ layer :: above) = above.foldl merge (merge (mergeAll below) layer) := by
  simp [mergeAll]

theorem foldl_merge_tidy (hx : x.Tidy) (ha : ∀ upper ∈ above, upper.Tidy) :
    (above.foldl merge x).Tidy :=
  foldl_merge_keeps hereditary_tidy hx ha

theorem mergeAll_tidy (hb : ∀ lower ∈ below, lower.Tidy) : (mergeAll below).Tidy :=
  foldl_merge_tidy tidy_empty hb

theorem foldl_merge_of_passes (hx : x.Tidy) (ha : ∀ upper ∈ above, upper.Tidy)
    (hnull : x.at? (place ++ [name]) = some .null)
    (hp : ∀ upper ∈ above, upper.passes (place ++ [name]) = true) :
    (above.foldl merge x).at? (place ++ [name]) = some .null ∧
      above.foldl merge (x.without name place) = (above.foldl merge x).without name place := by
  induction above generalizing x with
  | nil => exact ⟨hnull, rfl⟩
  | cons upper rest ih =>
    have hu := ha upper List.mem_cons_self
    obtain ⟨h, h'⟩ := merge_of_passes hx hu hnull (hp upper List.mem_cons_self)
    simp only [List.foldl_cons, h']
    exact ih (merge_tidy hx hu) (fun u hu => ha u (List.mem_cons_of_mem _ hu)) h
      fun u hu => hp u (List.mem_cons_of_mem _ hu)

theorem foldl_merge_of_not_passes (hx : x.Tidy) (ha : ∀ upper ∈ above, upper.Tidy)
    (hnull : x.at? (place ++ [name]) = some .null)
    (hp : ¬ ∀ upper ∈ above, upper.passes (place ++ [name]) = true) :
    above.foldl merge (x.without name place) = above.foldl merge x := by
  induction above generalizing x with
  | nil => simp at hp
  | cons upper rest ih =>
    have hu := ha upper List.mem_cons_self
    have hrest : ∀ u ∈ rest, u.Tidy := fun u hu => ha u (List.mem_cons_of_mem _ hu)
    by_cases hpass : upper.passes (place ++ [name]) = true
    · obtain ⟨h, h'⟩ := merge_of_passes hx hu hnull hpass
      simp only [List.foldl_cons, h']
      refine ih (merge_tidy hx hu) hrest h fun hall => hp fun u hmem => ?_
      rcases List.mem_cons.mp hmem with rfl | hmem
      · exact hpass
      · exact hall u hmem
    · rw [List.foldl_cons, List.foldl_cons, merge_without_of_not_passes hx hu hnull hpass]

/-- Does a null that a layer has as the member `name` of the object at `place` stay, between the
layers below and those above? -/
def NullStays (below above : List Json) (place : List String) (name : String) : Prop :=
  (mergeAll below).hasObject place = false ∧ ∀ upper ∈ above, upper.passes (place ++ [name]) = true

instance : Decidable (NullStays below above place name) := inferInstanceAs (Decidable (_ ∧ _))

section
variable (hb : ∀ lower ∈ below, lower.Tidy) (hl : layer.Tidy) (ha : ∀ upper ∈ above, upper.Tidy)
  (hnull : layer.at? (place ++ [name]) = some .null)

include hb hl ha hnull

theorem mergeAll_of_nullStays (h : NullStays below above place name) :
    (mergeAll (below ++ layer :: above)).at? (place ++ [name]) = some .null ∧
      mergeAll (below ++ layer.without name place :: above) =
        (mergeAll (below ++ layer :: above)).without name place := by
  have hbase := mergeAll_tidy hb
  obtain ⟨hx, hx'⟩ := merge_of_no_object hbase hl (by simp [h.1]) hnull
  rw [mergeAll_layers, mergeAll_layers, hx']
  exact foldl_merge_of_passes (merge_tidy hbase hl) ha hx h.2

theorem mergeAll_of_not_nullStays (h : ¬ NullStays below above place name) :
    mergeAll (below ++ layer.without name place :: above) = mergeAll (below ++ layer :: above) := by
  have hbase := mergeAll_tidy hb
  rw [mergeAll_layers, mergeAll_layers]
  by_cases hobject : (mergeAll below).hasObject place = true
  · rw [merge_without_of_hasObject hbase hl hobject hnull]
  · obtain ⟨hx, hx'⟩ := merge_of_no_object hbase hl hobject hnull
    rw [hx']
    exact foldl_merge_of_not_passes (merge_tidy hbase hl) ha hx
      fun hall => h ⟨by simpa using hobject, hall⟩

end

end Settings

end Supervisor
