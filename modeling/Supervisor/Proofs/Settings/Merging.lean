import Supervisor.Proofs.Json.Absence
import Supervisor.Proofs.Settings.Layering
/-!
# Reading merged layers

Layers are merged before they are read. If both of two layers can be read, so can the merged ones,
and what is read of them is put together from what is read of each: field by field, the upper layer
wins where it says something.
-/
namespace Supervisor

namespace Json
open Settings

variable {α ρ : Type}

/-- The member of an object, null if there is none. -/
def member (name : String) (j : Json) : Json := (j.member? name).getD .null

mutual

/-- What is read of two layers, from what is read of the lower and of the upper one; `layer` is the
upper one. -/
def Shape.overlay : {α : Type} → Shape α → (layer : Json) → α → α → α
  | _, .any, _, a, b => merge a b
  | _, .optional s, layer, a, b =>
    if layer.isNull then a
    else match a, b with
      | some a, some b => some (s.overlay layer a b)
      | _, b => b
  | _, .table _, _, a, b => Table.override a b
  | _, .record _ fields make parts, layer, a, b => make (fields.overlay layer (parts a) (parts b))
  | _, _, layer, a, b => if layer.isNull then a else b

def Fields.overlay : {ρ : Type} → Fields ρ → (layer : Json) → ρ → ρ → ρ
  | _, .nil, _, _, _ => ()
  | _, .cons n _ _ s rest, layer, (a, as), (b, bs) =>
    (s.overlay (layer.member n) a b, rest.overlay layer as bs)

end

mutual

/-- Every record that a value has is written as an object. -/
def Shape.InObjects : {α : Type} → Shape α → Json → Prop
  | _, .optional s, j => s.InObjects j
  | _, .record _ fields _ _, j => j.isObject = true ∧ fields.InObjects j
  | _, _, _ => True

def Fields.InObjects : {ρ : Type} → Fields ρ → Json → Prop
  | _, .nil, _ => True
  | _, .cons n _ _ s rest, j => (j.member n ≠ .null → s.InObjects (j.member n)) ∧ rest.InObjects j

end

theorem member_object (ms : Table Json) (name : String) :
    (object ms).member name = (ms.find? name).getD .null := rfl

@[simp] theorem member_null (name : String) : null.member name = .null := rfl

theorem exists_find?_of_member {ms : Table Json} {n : String} (h : (object ms).member n ≠ .null) :
    ∃ v, ms.find? n = some v ∧ (object ms).member n = v := by
  cases hm : ms.find? n with
  | none => simp [member_object, hm] at h
  | some v => exact ⟨v, rfl, by simp [member_object, hm]⟩

theorem at?_member {layer j : Json} {place : List String} {n : String}
    (hj : layer.at? place = some j) (hn : j.member n ≠ .null) :
    layer.at? (place ++ [n]) = some (j.member n) := by
  cases hm : j.member? n with
  | none => simp [member, hm] at hn
  | some v => simp [at?_append, hj, at?_cons, hm, member]

theorem overlaid_of_member_null {ms : Table Json} {n : String} (h : (object ms).member n = .null)
    (old : Option Json) : overlaid old (ms.find? n) = old := by
  cases hm : ms.find? n with
  | none => simp
  | some v =>
    obtain rfl : v = .null := by simpa [member_object, hm] using h
    simp

theorem overlaid_of_low_null {ms : Table Json} {n : String} (h : (object ms).member n = .null)
    {v : Json} (hv : v ≠ .null) : overlaid (ms.find? n) (some v) = some v := by
  cases hm : ms.find? n with
  | none => exact overlaid_new hv
  | some u =>
    obtain rfl : u = .null := by simpa [member_object, hm] using h
    rw [overlaid_some, merge_onto_null]

theorem readJson_optional {s : Shape α} {j : Json} (hj : j ≠ .null) {b : Option α}
    (h : s.optional.readJson j = .ok b) : ∃ a, s.readJson j = .ok a ∧ some a = b := by
  cases j with
  | null => exact (hj rfl).elim
  | _ => exact map_eq_ok.mp h

theorem readJson_optional_of {s : Shape α} {j : Json} (hj : j ≠ .null) {a : α}
    (h : s.readJson j = .ok a) : s.optional.readJson j = .ok (some a) := by
  cases j with
  | null => exact (hj rfl).elim
  | _ => exact map_eq_ok.mpr ⟨a, h, rfl⟩

theorem isSome_of_fieldJson {s : Shape α} {name : String} {ms : Table Json} {a : Option α}
    (h : s.optional.fieldJson (.default none) name (ms.find? name) = .ok a) :
    a.isSome = true ↔ (object ms).member name ≠ .null := by
  rw [member_object]
  cases hm : ms.find? name with
  | none =>
    rw [hm] at h
    obtain rfl : none = a := Except.ok.inj h
    simp
  | some v =>
    rw [hm] at h
    by_cases hnull : v = .null
    · subst hnull
      obtain rfl : none = a := Except.ok.inj h
      simp
    · obtain ⟨b, -, rfl⟩ := readJson_optional hnull h
      simpa using hnull

/-! ## Values that say nothing -/

mutual

theorem Shape.overlay_null : ∀ {α : Type} (s : Shape α) {a b : α}, s.Regular → s.Neutral b →
    s.overlay .null a b = a
  | _, .any, a, b, _, hb => by
    obtain rfl : b = .null := hb
    simp [Shape.overlay, merge_null]
  | _, .optional s, a, b, _, hb => by
    obtain rfl : b = none := hb
    cases a <;> rfl
  | _, .table s, a, b, _, hb => by
    obtain rfl : b = [] := hb
    rfl
  | _, .record _ fields make parts, a, b, hs, hb => by
    obtain ⟨hfields, -, hmake⟩ := hs
    rw [Shape.overlay, Fields.overlay_null fields hfields hb, hmake]
  | _, .choice _ _, _, _, hs, _ => hs.elim
  | _, .text, _, _, _, _ | _, .word _ _ _, _, _, _, _ | _, .natural _ _, _, _, _, _
  | _, .integer, _, _, _, _ | _, .flag, _, _, _, _ | _, .list _, _, _, _, _ => by
    simp [Shape.overlay, isNull]

theorem Fields.overlay_null : ∀ {ρ : Type} (fields : Fields ρ) {as bs : ρ}, fields.Regular →
    fields.membersJson [] = .ok bs → fields.overlay .null as bs = as
  | _, .nil, _, _, _, _ => rfl
  | _, .cons n absent _ s rest, (a, as), (b, bs), hf, hb => by
    obtain ⟨hs, habsent, hrest⟩ := hf
    obtain ⟨hb, hbs⟩ := Fields.membersJson_cons.mp hb
    rw [Fields.overlay, member_null, Shape.overlay_null s hs (habsent.neutral b hb),
      Fields.overlay_null rest hrest hbs]

end

/-- A field that is null or not there. -/
theorem Shape.AbsentAs.of_member_null {s : Shape α} {absent : Absent α} {name : String}
    (h : s.AbsentAs absent name) {ms : Table Json} {a : α}
    (ha : s.fieldJson absent name (ms.find? name) = .ok a) (hnull : (object ms).member name = .null) :
    absent.inObject name = .ok a := by
  cases hm : ms.find? name with
  | none => simpa [hm, Shape.fieldJson] using ha
  | some v =>
    obtain rfl : v = .null := by simpa [member_object, hm] using hnull
    exact h.ofNull a (by simpa [hm, Shape.fieldJson] using ha)

mutual

theorem Shape.overlay_neutral : ∀ {α : Type} (s : Shape α) {v : Json} {a b : α}, s.Regular →
    s.Neutral a → v.Tidy → s.readJson v = .ok b → s.InObjects v → s.overlay v a b = b
  | _, .any, v, a, b, _, ha, _, hb, _ => by
    obtain rfl : a = .null := ha
    simp [Shape.overlay, merge_onto_null]
  | _, .optional s, v, a, b, _, ha, _, hb, _ => by
    obtain rfl : a = none := ha
    by_cases hnull : v = .null
    · subst hnull
      obtain rfl : none = b := Except.ok.inj hb
      rfl
    · simp [Shape.overlay, isNull_eq_false hnull]
  | _, .table s, v, a, b, hs, ha, hv, hb, _ => by
    obtain rfl : a = [] := ha
    cases v with
    | object ms =>
      exact Table.override_nil (((entriesJson_eq_ok_of_ordered hv.ordered).mp hb).ordered hv.ordered)
    | _ => simp [Shape.readJson] at hb
  | _, .record name fields make parts, v, a, b, hs, ha, hv, hb, hv' => by
    obtain ⟨hfields, hparts, hmake⟩ := hs
    obtain ⟨hobject, hv'⟩ := hv'
    obtain ⟨ms, rfl⟩ := isObject_iff.mp hobject
    obtain ⟨row, hrow, rfl⟩ := (readJson_record_object hv.ordered).mp hb
    rw [Shape.overlay, hparts, Fields.overlay_neutral fields hfields ha hv hrow hv']
  | _, .choice _ _, _, _, _, hs, _, _, _, _ => hs.elim
  | _, .text, v, _, _, _, _, _, hb, _ | _, .word _ _ _, v, _, _, _, _, _, hb, _
  | _, .natural _ _, v, _, _, _, _, _, hb, _ | _, .integer, v, _, _, _, _, _, hb, _
  | _, .flag, v, _, _, _, _, _, hb, _ | _, .list _, v, _, _, _, _, _, hb, _ => by
    cases v with
    | null => simp [Shape.readJson] at hb
    | _ => rfl

theorem Fields.overlay_neutral : ∀ {ρ : Type} (fields : Fields ρ) {ms : Table Json} {as bs : ρ},
    fields.Regular → fields.membersJson [] = .ok as → Tidy (.object ms) →
    fields.membersJson ms = .ok bs → fields.InObjects (.object ms) →
    fields.overlay (.object ms) as bs = bs
  | _, .nil, _, _, _, _, _, _, _, _ => rfl
  | _, .cons n absent _ s rest, ms, (a, as), (b, bs), hf, ha, hms, hb, hin => by
    obtain ⟨hs, habsent, hrest⟩ := hf
    obtain ⟨ha, has⟩ := Fields.membersJson_cons.mp ha
    obtain ⟨hb, hbs⟩ := Fields.membersJson_cons.mp hb
    rw [Fields.overlay, Fields.overlay_neutral rest hrest has hms hbs hin.2]
    congr 1
    by_cases hnull : (object ms).member n = .null
    · have hb' := habsent.of_member_null hb hnull
      obtain rfl : a = b := Except.ok.inj (ha.symm.trans hb')
      rw [hnull, Shape.overlay_null s hs (habsent.neutral a ha)]
    · cases hm : Table.find? ms n with
      | none => simp [member_object, hm] at hnull
      | some v =>
        have hget : (object ms).member n = v := by simp [member_object, hm]
        rw [hget] at hnull ⊢
        rw [hm] at hb
        exact Shape.overlay_neutral s hs (habsent.neutral a ha) (hms.of_find? hm) hb
          (hget ▸ hin.1 (hget.symm ▸ hnull))

end

/-! ## Reading merged layers -/

theorem mergeMembers_entries {s : Shape α} (hs : s.Scalar) {xs ys : Table Json} {t u : Table α}
    (ht : Entries s.readJson xs t) (hu : Entries s.readJson ys u) :
    Entries s.readJson (mergeMembers xs ys) (t.override u) := by
  induction hu generalizing xs t with
  | nil => exact ht
  | @cons e e' ys u he _ ih =>
    obtain ⟨n, j⟩ := e
    obtain ⟨m, a⟩ := e'
    obtain ⟨rfl, hj⟩ : n = m ∧ s.readJson j = .ok a := he
    obtain ⟨hnull, hobject⟩ := hs j a hj
    have hstep : mergeMembers xs ((n, j) :: ys) = mergeMembers (Table.insert n j xs) ys := by
      rw [mergeMembers_cons]
      cases Table.find? xs n with
      | none => rw [overlaid_new hnull]
      | some old => rw [overlaid_some, merge_eq_layer hnull hobject]
    rw [hstep]
    exact ih (ht.insert n hj)

mutual

/-- If two layers can be read, so can the merged ones. If their records are objects, what is read is
put together from what is read of the two. -/
theorem Shape.readJson_merge : ∀ {α : Type} (s : Shape α) {x y : Json} {a b : α}, s.Regular →
    x.Tidy → y.Tidy → s.readJson x = .ok a → s.readJson y = .ok b →
    ∃ c, s.readJson (merge x y) = .ok c ∧
      (s.InObjects x → s.InObjects y → c = s.overlay y a b)
  | _, .any, x, y, a, b, _, _, _, ha, hb => by
    cases ha
    cases hb
    exact ⟨merge x y, rfl, fun _ _ => rfl⟩
  | _, .optional s, x, y, a, b, hs, hx, hy, ha, hb => by
    by_cases hnull : y = .null
    · subst hnull
      obtain rfl : none = b := Except.ok.inj hb
      exact ⟨a, by rwa [merge_null], fun _ _ => by cases a <;> rfl⟩
    obtain ⟨b', hb', rfl⟩ := readJson_optional hnull hb
    by_cases hlow : x = .null
    · subst hlow
      obtain rfl : none = a := Except.ok.inj ha
      refine ⟨some b', by rwa [merge_onto_null], fun _ _ => ?_⟩
      simp [Shape.overlay, isNull_eq_false hnull]
    obtain ⟨a', ha', rfl⟩ := readJson_optional hlow ha
    obtain ⟨c, hc, hoverlay⟩ := Shape.readJson_merge s hs hx hy ha' hb'
    refine ⟨some c, readJson_optional_of (merge_ne_null hnull) hc, fun hx' hy' => ?_⟩
    simp [Shape.overlay, isNull_eq_false hnull, hoverlay hx' hy']
  | _, .table s, x, y, a, b, hs, hx, hy, ha, hb => by
    cases x with
    | object xs =>
      cases y with
      | object ys =>
        refine ⟨a.override b, ?_, fun _ _ => rfl⟩
        rw [merge_objects]
        exact (entriesJson_eq_ok_of_ordered (mergeMembers_ordered hx hy)).mpr
          (mergeMembers_entries hs ((entriesJson_eq_ok_of_ordered hx.ordered).mp ha)
            ((entriesJson_eq_ok_of_ordered hy.ordered).mp hb))
      | _ => simp [Shape.readJson] at hb
    | _ => simp [Shape.readJson] at ha
  | _, .record name fields make parts, x, y, a, b, hs, hx, hy, ha, hb => by
    obtain ⟨hfields, hparts, -⟩ := hs
    cases y with
    | array items =>
      exact ⟨b, hb, fun _ hy' => by simp [Shape.InObjects, isObject] at hy'⟩
    | object ys =>
      cases x with
      | array items =>
        exact ⟨b, by simpa [merge] using hb, fun hx' => by simp [Shape.InObjects, isObject] at hx'⟩
      | object xs =>
        obtain ⟨as, has, rfl⟩ := (readJson_record_object hx.ordered).mp ha
        obtain ⟨bs, hbs, rfl⟩ := (readJson_record_object hy.ordered).mp hb
        obtain ⟨cs, hcs, hoverlay⟩ := Fields.membersJson_merge fields hfields hx hy has hbs
        rw [merge_objects]
        refine ⟨make cs, (readJson_record_object (mergeMembers_ordered hx hy)).mpr ⟨cs, hcs, rfl⟩, ?_⟩
        intro hx' hy'
        rw [Shape.overlay, hparts, hparts, hoverlay hx'.2 hy'.2]
      | _ => simp [Shape.readJson] at ha
    | _ => simp [Shape.readJson] at hb
  | _, .choice _ _, _, _, _, _, hs, _, _, _, _ => hs.elim
  | _, .text, _, y, _, b, _, _, _, _, hb | _, .word _ _ _, _, y, _, b, _, _, _, _, hb
  | _, .natural _ _, _, y, _, b, _, _, _, _, hb | _, .integer, _, y, _, b, _, _, _, _, hb
  | _, .flag, _, y, _, b, _, _, _, _, hb | _, .list _, _, y, _, b, _, _, _, _, hb => by
    cases y with
    | null | object ms => simp [Shape.readJson] at hb
    | _ => exact ⟨b, by simpa [merge] using hb, fun _ _ => rfl⟩

theorem Fields.membersJson_merge : ∀ {ρ : Type} (fields : Fields ρ) {xs ys : Table Json} {as bs : ρ},
    fields.Regular → Tidy (.object xs) → Tidy (.object ys) → fields.membersJson xs = .ok as →
    fields.membersJson ys = .ok bs →
    ∃ cs, fields.membersJson (mergeMembers xs ys) = .ok cs ∧
      (fields.InObjects (.object xs) → fields.InObjects (.object ys) →
        cs = fields.overlay (.object ys) as bs)
  | _, .nil, _, _, _, _, _, _, _, _, _ => ⟨(), rfl, fun _ _ => rfl⟩
  | _, .cons n absent _ s rest, xs, ys, (a, as), (b, bs), hf, hx, hy, ha, hb => by
    obtain ⟨hs, habsent, hrest⟩ := hf
    obtain ⟨ha, has⟩ := Fields.membersJson_cons.mp ha
    obtain ⟨hb, hbs⟩ := Fields.membersJson_cons.mp hb
    obtain ⟨cs, hcs, hoverlay⟩ := Fields.membersJson_merge rest hrest hx hy has hbs
    have hfield : ∃ c, s.fieldJson absent n (overlaid (Table.find? xs n) (Table.find? ys n)) = .ok c ∧
        (((object xs).member n ≠ .null → s.InObjects ((object xs).member n)) →
          ((object ys).member n ≠ .null → s.InObjects ((object ys).member n)) →
          c = s.overlay ((object ys).member n) a b) := by
      by_cases hnull : (object ys).member n = .null
      · have hb' := habsent.of_member_null hb hnull
        refine ⟨a, by rwa [overlaid_of_member_null hnull], fun _ _ => ?_⟩
        rw [hnull, Shape.overlay_null s hs (habsent.neutral b hb')]
      obtain ⟨v, hv, hget⟩ := exists_find?_of_member hnull
      rw [hget] at hnull ⊢
      rw [hv] at hb ⊢
      by_cases hlow : (object xs).member n = .null
      · have ha' := habsent.of_member_null ha hlow
        refine ⟨b, by rwa [overlaid_of_low_null hlow hnull], fun _ hy' => ?_⟩
        rw [Shape.overlay_neutral s hs (habsent.neutral a ha') (hy.of_find? hv) hb (hy' hnull)]
      obtain ⟨u, hu, hgetu⟩ := exists_find?_of_member hlow
      rw [hgetu] at hlow ⊢
      rw [hu] at ha ⊢
      obtain ⟨c, hc, hcover⟩ := Shape.readJson_merge s hs (hx.of_find? hu) (hy.of_find? hv) ha hb
      exact ⟨c, hc, fun hx' hy' => hcover (hx' hlow) (hy' hnull)⟩
    obtain ⟨c, hc, hcover⟩ := hfield
    refine ⟨(c, cs), Fields.membersJson_cons.mpr ⟨?_, hcs⟩, fun hx' hy' => ?_⟩
    · rwa [find?_mergeMembers hy.ordered]
    · rw [Fields.overlay, hcover hx'.1 hy'.1, hoverlay hx'.2 hy'.2]

end

/-! ## The lowest layer

It is put over an empty object, which drops the nulls on its top level. -/

theorem member_merge_lowest {ys : Table Json} (hy : Tidy (.object ys)) (n : String) :
    (merge (.object []) (.object ys)).member n = (object ys).member n := by
  rw [merge_objects, member_object, member_object, find?_mergeMembers hy.ordered, Table.find?_nil]
  cases hn : Table.find? ys n with
  | none => rfl
  | some v => cases v <;> rfl

/-- An upper layer may be put over an empty object before. -/
theorem merge_merge_lowest {xs : Table Json} {y : Json} (hx : Tidy (.object xs)) (hy : y.Tidy) :
    merge (.object xs) (merge (.object []) y) = merge (.object xs) y := by
  by_cases hobject : ∃ ys, y = .object ys
  · obtain ⟨ys, rfl⟩ := hobject
    have hy' := merge_tidy tidy_empty hy
    rw [merge_objects] at hy' ⊢
    refine merge_congr hx hy' hx hy fun key => ?_
    rw [find?_mergeMembers hy.ordered, Table.find?_nil]
    cases Table.find? ys key with
    | none => rfl
    | some v =>
      by_cases hv : v = .null
      · rw [hv, overlaid_null none, overlaid_none, overlaid_null]
      · rw [overlaid_new hv]
  · by_cases hnull : y = .null
    · rw [hnull, merge_null, merge_null, merge_objects]
      rfl
    · rw [merge_eq_layer hnull hobject]

/-- A record whose nulls were dropped can be read with them if no field refuses them. -/
theorem Fields.exists_membersJson_iff : ∀ {ρ : Type} (fields : Fields ρ) {ys : Table Json} {row : ρ},
    ys.Ordered → fields.membersJson (mergeMembers [] ys) = .ok row →
    ((∃ row', fields.membersJson ys = .ok row') ↔
      ∀ n, fields.hears n [] = true → ys.find? n ≠ some .null)
  | _, .nil, ys, row, _, _ => ⟨fun _ n hn => by simp [Fields.hears] at hn, fun _ => ⟨(), rfl⟩⟩
  | _, .cons n absent omitted s rest, ys, (a, as), hy, h => by
    obtain ⟨ha, has⟩ := Fields.membersJson_cons.mp h
    have hrest := Fields.exists_membersJson_iff rest hy has
    have hhead : (∃ a', s.fieldJson absent n (ys.find? n) = .ok a') ↔
        (s.takesNull = false → ys.find? n ≠ some .null) := by
      rw [find?_mergeMembers hy, Table.find?_nil] at ha
      by_cases hnull : ys.find? n = some .null
      · have htakes : (∃ a', s.readJson .null = .ok a') ↔ s.takesNull = true := by
          cases h : s.readJson .null <;> simp [Shape.takesNull, h, Except.isOk, Except.toBool]
        simp [hnull, Shape.fieldJson, htakes]
      · refine ⟨fun _ _ => hnull, fun _ => ⟨a, ?_⟩⟩
        cases hv : ys.find? n with
        | none => simpa [hv] using ha
        | some v =>
          have hne : v ≠ .null := by
            rintro rfl
            exact hnull hv
          rwa [hv, overlaid_new hne] at ha
    have hboth : (∃ row', (Fields.cons n absent omitted s rest).membersJson ys = .ok row') ↔
        (∃ a', s.fieldJson absent n (ys.find? n) = .ok a') ∧
          ∃ as', rest.membersJson ys = .ok as' := by
      simp [Prod.exists, Fields.membersJson_cons]
    rw [hboth, hhead, hrest]
    constructor
    · rintro ⟨h, hr⟩ m hm
      simp only [Fields.hears, Bool.or_eq_true, Bool.and_eq_true, beq_iff_eq, Bool.not_eq_true'] at hm
      rcases hm with ⟨rfl, hm⟩ | hm
      · exact h hm
      · exact hr m hm
    · intro h
      exact ⟨fun hn => h n (by simp [Fields.hears, hn]), fun m hm => h m (by simp [Fields.hears, hm])⟩

end Json

end Supervisor
