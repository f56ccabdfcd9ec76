import Supervisor.Proofs.Settings.Layering
/-!
# Merging place by place

What a merged value has at a place comes from what the two values have there, and from nothing else:
from the layer if it says something about the place, and otherwise from the base. So a layer that has
been merged already changes nothing.
-/
namespace Supervisor

namespace Json

/-- A layer says nothing about a place: as far as it goes down there, it ends in null or in an object
without the next name. -/
def SaysNothing (layer : Json) (place : List String) : Prop :=
  ∃ shown rest, place = shown ++ rest ∧
    (layer.at? shown = some .null ∨
      ∃ ms name below, rest = name :: below ∧ layer.at? shown = some (.object ms) ∧
        Table.find? ms name = none)

theorem saysNothing_null (place : List String) : SaysNothing .null place :=
  ⟨[], place, rfl, .inl rfl⟩

theorem saysNothing_of_missing {ms : Table Json} {name : String} (hn : ms.find? name = none)
    (below : List String) : SaysNothing (.object ms) (name :: below) :=
  ⟨[], name :: below, rfl, .inr ⟨ms, name, below, rfl, at?_nil _, hn⟩⟩

theorem saysNothing_of_member {ms : Table Json} {name : String} {j : Json}
    (hj : ms.find? name = some j) {place : List String} (h : j.SaysNothing place) :
    SaysNothing (.object ms) (name :: place) := by
  obtain ⟨shown, rest, rfl, h⟩ := h
  have hat : (object ms).at? (name :: shown) = j.at? shown := by simp [hj]
  refine ⟨name :: shown, rest, rfl, ?_⟩
  rw [hat]
  exact h

/-- Step by step: a layer says nothing about a place below an object if it has nothing under the next
name, or if what it has there says nothing about the rest of the place. -/
theorem saysNothing_cons {layer : Json} {name : String} {place : List String}
    (h : layer.SaysNothing (name :: place)) :
    layer = .null ∨ ∃ ms, layer = .object ms ∧
      ∀ j, Table.find? ms name = some j → j.SaysNothing place := by
  obtain ⟨shown, rest, hplace, h⟩ := h
  cases shown with
  | nil =>
    obtain rfl : name :: place = rest := hplace
    rcases h with h | ⟨ms, key, below, hrest, hms, hmissing⟩
    · exact .inl (by simpa using h)
    · obtain ⟨rfl, rfl⟩ := List.cons.inj hrest
      refine .inr ⟨ms, by simpa using hms, fun j hj => ?_⟩
      simp [hmissing] at hj
  | cons key shown =>
    obtain ⟨rfl, rfl⟩ := List.cons.inj hplace
    have hthere : ∃ v, layer.at? (name :: shown) = some v := by
      rcases h with h | ⟨ms, _, _, _, h, _⟩
      · exact ⟨_, h⟩
      · exact ⟨_, h⟩
    obtain ⟨v, hv⟩ := hthere
    obtain ⟨ms, m, rfl, hm, -⟩ := exists_object_of_at?_cons hv
    refine .inr ⟨ms, rfl, fun j hj => ?_⟩
    obtain rfl : m = j := Option.some.inj (hm.symm.trans hj)
    have hat : (object ms).at? (name :: shown) = m.at? shown := by simp [hm]
    rw [hat] at h
    exact ⟨shown, rest, rfl, h⟩

theorem eq_null_of_saysNothing_nil {layer : Json} (h : layer.SaysNothing []) : layer = .null := by
  obtain ⟨shown, rest, hplace, h⟩ := h
  obtain ⟨rfl, rfl⟩ := List.append_eq_nil_iff.mp hplace.symm
  rcases h with h | ⟨_, _, _, hrest, _⟩
  · simpa using h
  · cases hrest

theorem passes_iff_saysNothing {layer : Json} {place : List String} :
    layer.passes place = true ↔ layer.SaysNothing place := by
  induction place generalizing layer with
  | nil =>
    refine ⟨fun h => ?_, fun h => ?_⟩
    · rw [eq_null_of_passes_nil h]
      exact saysNothing_null []
    · rw [eq_null_of_saysNothing_nil h]
      exact passes_null []
  | cons name rest ih =>
    refine ⟨fun h => ?_, fun h => ?_⟩
    · rcases eq_null_or_object_of_passes h with rfl | ⟨ms, rfl⟩
      · exact saysNothing_null _
      · cases hj : Table.find? ms name with
        | none => exact saysNothing_of_missing hj rest
        | some j =>
          rw [passes_of_find? hj] at h
          exact saysNothing_of_member hj (ih.mp h)
    · rcases saysNothing_cons h with rfl | ⟨ms, rfl, hbelow⟩
      · exact passes_null _
      · cases hj : Table.find? ms name with
        | none => exact passes_of_missing hj rest
        | some j =>
          rw [passes_of_find? hj]
          exact ih.mpr (hbelow j hj)

theorem sizeOf_lt_of_find? {ms : Table Json} {name : String} {j : Json}
    (hj : ms.find? name = some j) : sizeOf j < sizeOf (object ms) := by
  have hmem := List.sizeOf_lt_of_mem (Table.mem_of_find? hj)
  simp only [Prod.mk.sizeOf_spec, object.sizeOf_spec] at hmem ⊢
  omega

/-- What holds of a value if it holds of every member holds of all values. -/
theorem members_induction {P : Json → Prop}
    (step : ∀ j, (∀ ms name m, j = .object ms → Table.find? ms name = some m → P m) → P j)
    (j : Json) : P j := by
  induction hsize : sizeOf j using Nat.strong_induction_on generalizing j with
  | _ size ih =>
    refine step j fun ms name m hj hm => ih (sizeOf m) ?_ m rfl
    rw [← hsize, hj]
    exact sizeOf_lt_of_find? hm

end Json

namespace Settings
open Json

variable {base layer v : Json} {place : List String} {name : String}

/-! ## One place -/

theorem at?_merge_objects {bs ms : Table Json} (ho : ms.Ordered) (name : String)
    (rest : List String) :
    (merge (.object bs) (.object ms)).at? (name :: rest) =
      (overlaid (bs.find? name) (ms.find? name)).bind (·.at? rest) := by
  rw [merge_objects, at?_object_cons, find?_mergeMembers ho]

/-- How two values come together. -/
theorem merge_cases (base layer : Json) :
    (layer = .null ∧ merge base layer = base) ∨
      (∃ bs ms, base = .object bs ∧ layer = .object ms) ∨
      merge base layer = layer := by
  by_cases hnull : layer = .null
  · subst hnull
    exact .inl ⟨rfl, merge_null base⟩
  by_cases hlayer : ∃ ms, layer = .object ms
  · obtain ⟨ms, rfl⟩ := hlayer
    by_cases hbase : ∃ bs, base = .object bs
    · obtain ⟨bs, rfl⟩ := hbase
      exact .inr (.inl ⟨bs, ms, rfl, rfl⟩)
    · exact .inr (.inr (merge_object_of_not_object hbase))
  · exact .inr (.inr (merge_eq_layer hnull hlayer))

theorem at?_merge_of_layer (hl : layer.Tidy) (hat : layer.at? place = some v) (hv : v ≠ .null)
    (hplain : v.isObject = false) : (merge base layer).at? place = some v := by
  induction place generalizing base layer with
  | nil =>
    obtain rfl : layer = v := by simpa using hat
    have hlayer : ¬ ∃ ms, layer = .object ms := by
      rintro ⟨ms, rfl⟩
      simp [isObject] at hplain
    rw [merge_eq_layer hv hlayer, at?_nil]
  | cons name rest ih =>
    obtain ⟨ms, m, rfl, hm, hmv⟩ := exists_object_of_at?_cons hat
    by_cases hbase : ∃ bs, base = .object bs
    · obtain ⟨bs, rfl⟩ := hbase
      rw [at?_merge_objects hl.ordered, hm]
      cases hold : Table.find? bs name with
      | some old => exact ih (hl.of_find? hm) hmv
      | none =>
        -- What is new to the base is put in as it is, and it is not null: `v` is in it.
        have hne : m ≠ .null := by
          rintro rfl
          cases rest with
          | nil => exact hv (by simpa using hmv.symm)
          | cons => simp at hmv
        rw [overlaid_new hne, Option.bind_some]
        exact hmv
    · rw [merge_object_of_not_object hbase]
      exact hat

theorem at?_merge_of_base (hl : layer.Tidy) (hat : base.at? place = some v)
    (hpasses : layer.passes place = true) : (merge base layer).at? place = some v := by
  induction place generalizing base layer with
  | nil => rwa [eq_null_of_passes_nil hpasses, merge_null]
  | cons name rest ih =>
    rcases eq_null_or_object_of_passes hpasses with rfl | ⟨ms, rfl⟩
    · rwa [merge_null]
    obtain ⟨bs, old, rfl, hold, hv⟩ := exists_object_of_at?_cons hat
    rw [at?_merge_objects hl.ordered, hold]
    cases hj : Table.find? ms name with
    | none => exact hv
    | some j =>
      rw [passes_of_find? hj] at hpasses
      exact ih (hl.of_find? hj) hv hpasses

theorem at?_of_merge (hl : layer.Tidy) (hat : (merge base layer).at? place = some v)
    (hplain : v.isObject = false) : layer.at? place = some v ∨ base.at? place = some v := by
  induction place generalizing base layer with
  | nil =>
    rcases merge_cases base layer with ⟨-, h⟩ | ⟨bs, ms, rfl, rfl⟩ | h
    · exact .inr (h ▸ hat)
    · -- Two objects make an object.
      obtain rfl : merge (.object bs) (.object ms) = v := by simpa using hat
      simp [merge_objects, isObject] at hplain
    · exact .inl (h ▸ hat)
  | cons name rest ih =>
    rcases merge_cases base layer with ⟨-, h⟩ | ⟨bs, ms, rfl, rfl⟩ | h
    · exact .inr (h ▸ hat)
    · rw [at?_merge_objects hl.ordered] at hat
      simp only [at?_object_cons]
      cases hj : Table.find? ms name with
      | none =>
        rw [hj, overlaid_none] at hat
        exact .inr hat
      | some j =>
        cases hold : Table.find? bs name with
        | some old =>
          rw [hj, hold] at hat
          exact ih (hl.of_find? hj) hat
        | none =>
          rw [hj, hold] at hat
          by_cases hne : j = .null
          · subst hne
            simp at hat
          · rw [overlaid_new hne] at hat
            exact .inl hat
    · exact .inl (h ▸ hat)

/-! ## Merging again -/

/-- Merged objects are some object again if each of its members comes out as it is. -/
theorem merge_objects_eq {bs ms cs : Table Json} (hb : Tidy (.object bs)) (hl : Tidy (.object ms))
    (hc : cs.Ordered)
    (h : ∀ key, overlaid (bs.find? key) (ms.find? key) = cs.find? key) :
    merge (.object bs) (.object ms) = .object cs := by
  rw [merge_objects]
  refine object_congr (mergeMembers_ordered hb hl) hc fun key => ?_
  rw [find?_mergeMembers hl.ordered, h]

theorem merge_self {j : Json} (h : j.Tidy) : merge j j = j := by
  induction j using members_induction with
  | step j ih =>
    rcases merge_cases j j with ⟨-, hm⟩ | ⟨ms, -, rfl, -⟩ | hm
    · exact hm
    · refine merge_objects_eq h h h.ordered fun key => ?_
      cases hj : Table.find? ms key with
      | none => rfl
      | some m => rw [overlaid_some, ih ms key m rfl hj (h.of_find? hj)]
    · exact hm

theorem merge_merge_self (hb : base.Tidy) (hl : layer.Tidy) :
    merge (merge base layer) layer = merge base layer := by
  induction layer using members_induction generalizing base with
  | step layer ih =>
    rcases merge_cases base layer with ⟨rfl, -⟩ | ⟨bs, ms, rfl, rfl⟩ | hm
    · rw [merge_null]
    · have hmerged := merge_tidy hb hl
      rw [merge_objects] at hmerged ⊢
      refine merge_objects_eq hmerged hl hmerged.ordered fun key => ?_
      rw [find?_mergeMembers hl.ordered]
      cases hj : Table.find? ms key with
      | none => rw [overlaid_none, overlaid_none]
      | some j =>
        have hjtidy := hl.of_find? hj
        cases hold : Table.find? bs key with
        | some old =>
          rw [overlaid_some, overlaid_some, ih ms key j rfl hj (hb.of_find? hold) hjtidy]
        | none =>
          by_cases hne : j = .null
          · subst hne
            rw [overlaid_null, overlaid_null]
          · rw [overlaid_new hne, overlaid_some, merge_self hjtidy]
    · rw [hm]
      exact merge_self hl

/-- Place by place, a layer decides where it has a plain value that is not null, the base stays where
the layer says nothing, and no plain value comes from anywhere else; and a layer that is merged again
changes nothing. -/
theorem merge_placewise {base layer : Json} (hb : base.Tidy) (hl : layer.Tidy) :
    (∀ place v, layer.at? place = some v → v ≠ .null → v.isObject = false →
      (merge base layer).at? place = some v) ∧
    (∀ place v, base.at? place = some v → v.isObject = false → layer.SaysNothing place →
      (merge base layer).at? place = some v) ∧
    (∀ place v, (merge base layer).at? place = some v → v.isObject = false →
      layer.at? place = some v ∨ base.at? place = some v) ∧
    merge (merge base layer) layer = merge base layer :=
  ⟨fun _ _ hat hv hplain => at?_merge_of_layer hl hat hv hplain,
    fun _ _ hat _ hsilent => at?_merge_of_base hl hat (passes_iff_saysNothing.mpr hsilent),
    fun _ _ hat hplain => at?_of_merge hl hat hplain,
    merge_merge_self hb hl⟩

/-- A text under the layer's own, and a text under a null of the layer. -/
theorem merge_placewise_command :
    let base := object [("server", .object [("command", .string "a"), ("cwd", .string "w")])]
    let layer := object [("server", .object [("command", .string "b"), ("cwd", .null)])]
    (merge base layer).at? ["server", "command"] = some (.string "b") ∧
      (merge base layer).at? ["server", "cwd"] = some (.string "w") ∧
      merge (merge base layer) layer = merge base layer := by
  intro base layer
  have hone (v w : Json) (hv : v.Tidy) (hw : w.Tidy) :
      Tidy (.object [("server", .object [("command", v), ("cwd", w)])]) :=
    tidy_empty.insert "server" ((tidy_empty.insert "cwd" hw).insert "command" hv)
  have hbase : base.Tidy := hone _ _ (tidy_of_not_object (by simp)) (tidy_of_not_object (by simp))
  have hlayer : layer.Tidy := hone _ _ (tidy_of_not_object (by simp)) (tidy_of_not_object (by simp))
  obtain ⟨hover, hunder, -, hagain⟩ := merge_placewise hbase hlayer
  refine ⟨hover _ _ rfl (by simp) rfl, hunder _ _ rfl rfl ?_, hagain⟩
  exact ⟨["server", "cwd"], [], rfl, .inl rfl⟩

end Settings

end Supervisor
