import Supervisor.Proofs.Json.Agreement
import Supervisor.Proofs.Json.RoundTrip
/-!
# What is read fits its shape

Whatever a lawful shape reads, from a text or from a value that was read before, fits the shape: the
limits that writing relies on are those that reading has seen to.
-/
namespace Supervisor.Json

variable {α ρ : Type}

/-! ## Words, numbers and absent fields -/

theorem refusal_eq_ok {x : Except String α} {a : α} : refusal x = .ok a ↔ x = .ok a := by
  cases x <;> simp [refusal]

theorem lt_of_readNatural {wanted : String} {bits : Nat} {x : Number} {n : Nat}
    (h : readNatural wanted bits x = .ok n) : n < Nat.pow 2 bits := by
  unfold readNatural at h
  split at h
  · split at h
    · next hfits =>
      obtain ⟨hl, hu⟩ := Bool.and_eq_true_iff.mp hfits
      simp only [decide_eq_true_eq] at hl hu
      cases h
      omega
    · cases h
  · cases h

theorem fits_of_readInteger {x : Number} {z : Int} (h : readInteger x = .ok z) :
    Shape.integer.Fits z := by
  unfold readInteger at h
  split at h
  · split at h
    · next hfits =>
      obtain ⟨hl, hu⟩ := Bool.and_eq_true_iff.mp hfits
      cases h
      exact ⟨of_decide_eq_true hl, of_decide_eq_true hu⟩
    · cases h
  · cases h

theorem lookup_of_findVariant {variants : List (String × α)} {name : String} {a : α}
    (h : findVariant variants name = .ok a) : variants.lookup name = some a := by
  unfold findVariant at h
  split at h
  · next b hb =>
    cases h
    exact hb
  · cases h

theorem Absent.inObject_of_inArray {absent : Absent α} {wanted : String} {position : Nat} {a : α}
    (h : absent.inArray wanted position = .ok a) (name : String) : absent.inObject name = .ok a := by
  cases absent with
  | default b => exact h
  | implied b => cases h
  | required => cases h

/-- The variant that an object with a single member stands for. -/
theorem exists_findVariant_of_readVariantObject {variants : List (String × α)}
    {members : List (StringBody × Outline)} {wrongName : Option Outline} {e : Ending} {a : α}
    (h : readVariantObject variants members wrongName e = .ok a) :
    ∃ name, findVariant variants name = .ok a := by
  unfold readVariantObject at h
  split at h
  · split at h <;> first | exact (Outline.wrongType_ne_ok h).elim | cases h
  · simp only [bind_eq_ok] at h
    obtain ⟨name, -, b, hb, _, -, h⟩ := h
    split_ifs at h
    split at h <;> cases h
    exact ⟨name, hb⟩

/-! ## Lists and tables -/

section
variable {P : α → Prop}

theorem readEach_all {read : Outline → Except ReadError α} (h : ∀ o a, read o = .ok a → P a)
    {items : List Outline} {as : List α} (has : readEach read items = .ok as) : ∀ a ∈ as, P a := by
  induction items generalizing as with
  | nil =>
    cases has
    simp
  | cons o rest ih =>
    simp only [readEach, bind_eq_ok] at has
    obtain ⟨a, ha, as', has', heq⟩ := has
    cases heq
    exact List.forall_mem_cons.mpr ⟨h o a ha, ih has'⟩

theorem eachJson_all {read : Json → Except ReadError α} {items : List Json}
    (h : ∀ j ∈ items, ∀ a, read j = .ok a → P a) {as : List α}
    (has : eachJson read items = .ok as) : ∀ a ∈ as, P a := by
  induction items generalizing as with
  | nil =>
    cases has
    simp
  | cons j rest ih =>
    obtain ⟨hj, hrest⟩ := List.forall_mem_cons.mp h
    simp only [eachJson, bind_eq_ok] at has
    obtain ⟨a, ha, as', has', heq⟩ := has
    cases heq
    exact List.forall_mem_cons.mpr ⟨hj a ha, ih hrest has'⟩

/-- A table in order whose entries all have `P`. -/
def AllEntries (P : α → Prop) (t : Table α) : Prop := t.Ordered ∧ ∀ e ∈ t, P e.2

theorem AllEntries.insert {t : Table α} (ht : AllEntries P t) (name : String) {a : α} (ha : P a) :
    AllEntries P (t.insert name a) := by
  refine ⟨ht.1.insert name a, fun e he => ?_⟩
  rcases Table.mem_insert he with rfl | he
  · exact ha
  · exact ht.2 e he

theorem allEntries_nil : AllEntries P [] := ⟨Table.ordered_nil, by simp⟩

theorem readEntries_all {read : Outline → Except ReadError α} (h : ∀ o a, read o = .ok a → P a)
    {members : List (StringBody × Outline)} {t t' : Table α} (ht : AllEntries P t)
    (ht' : readEntries read members t = .ok t') : AllEntries P t' := by
  induction members generalizing t with
  | nil =>
    cases ht'
    exact ht
  | cons m rest ih =>
    obtain ⟨b, o⟩ := m
    simp only [readEntries, bind_eq_ok] at ht'
    obtain ⟨name, -, a, ha, ht'⟩ := ht'
    exact ih (ht.insert name (h o a ha)) ht'

theorem entriesJson_all {read : Json → Except ReadError α} {ms : List (String × Json)}
    (h : ∀ e ∈ ms, ∀ a, read e.2 = .ok a → P a) {t t' : Table α} (ht : AllEntries P t)
    (ht' : entriesJson read ms t = .ok t') : AllEntries P t' := by
  induction ms generalizing t with
  | nil =>
    cases ht'
    exact ht
  | cons e rest ih =>
    obtain ⟨n, j⟩ := e
    obtain ⟨hj, hrest⟩ := List.forall_mem_cons.mp h
    simp only [entriesJson, bind_eq_ok] at ht'
    obtain ⟨a, ha, ht'⟩ := ht'
    exact ih hrest (ht.insert n (hj a ha)) ht'

end

/-! ## Nothing but null is written as null -/

theorem Shape.write_ne_null_of_readOutline : ∀ {α : Type} (s : Shape α) {depth : Nat} {o : Outline}
    {a : α}, o ≠ .null → s.readOutline depth o = .ok a → s.write a ≠ .null
  | _, .any, depth, o, a, ho, h => by
    rintro rfl
    exact ho (Outline.eq_null_of_readAny h)
  | _, .optional s, depth, o, a, ho, h => by
    rw [readOutline_optional_of ho] at h
    obtain ⟨b, hb, rfl⟩ := map_eq_ok.mp h
    exact Shape.write_ne_null_of_readOutline s ho hb
  | _, .text, _, _, _, _, _ | _, .word _ _ _, _, _, _, _, _ | _, .natural _ _, _, _, _, _, _
  | _, .integer, _, _, _, _, _ | _, .flag, _, _, _, _, _ | _, .list _, _, _, _, _, _
  | _, .table _, _, _, _, _, _ | _, .choice _ _, _, _, _, _, _
  | _, .record _ _ _ _, _, _, _, _, _ => by
    simp [Shape.write, nat, int]

theorem readJson_optional_eq {s : Shape α} {j : Json} (hj : j ≠ .null) :
    s.optional.readJson j = (s.readJson j).map some := by
  cases j with
  | null => exact (hj rfl).elim
  | _ => rfl

theorem Shape.write_ne_null_of_readJson : ∀ {α : Type} (s : Shape α) {j : Json} {a : α},
    j ≠ .null → s.readJson j = .ok a → s.write a ≠ .null
  | _, .any, j, a, hj, h => by
    cases h
    exact hj
  | _, .optional s, j, a, hj, h => by
    rw [readJson_optional_eq hj] at h
    obtain ⟨b, hb, rfl⟩ := map_eq_ok.mp h
    exact Shape.write_ne_null_of_readJson s hj hb
  | _, .text, _, _, _, _ | _, .word _ _ _, _, _, _, _ | _, .natural _ _, _, _, _, _
  | _, .integer, _, _, _, _ | _, .flag, _, _, _, _ | _, .list _, _, _, _, _
  | _, .table _, _, _, _, _ | _, .choice _ _, _, _, _, _ | _, .record _ _ _ _, _, _, _, _ => by
    simp [Shape.write, nat, int]

/-! ## From a text -/

/-- A record that was made from its row. -/
theorem fits_of_make {name : String} {fields : Fields ρ} {make : ρ → α} {parts : α → ρ}
    (hs : (Shape.record name fields make parts).Lawful) {row : ρ} (hrow : fields.Fits row) :
    (Shape.record name fields make parts).Fits (make row) := by
  have hparts := hs.2.2 row
  exact ⟨by rw [hparts], by rwa [hparts]⟩

mutual

theorem Shape.fits_of_readOutline : ∀ {α : Type} (s : Shape α) {depth : Nat} {o : Outline} {a : α},
    s.Lawful → s.readOutline depth o = .ok a → s.Fits a
  | _, .text, _, _, _, _, _ | _, .flag, _, _, _, _, _ => trivial
  | _, .word _ read write, depth, o, a, hs, h => by
    cases o with
    | string b =>
      obtain ⟨t, -, ht⟩ := bind_eq_ok.mp h
      exact hs t a (refusal_eq_ok.mp ht)
    | _ => exact (Outline.wrongType_ne_ok h).elim
  | _, .natural wanted bits, depth, o, a, _, h => by
    cases o with
    | number n =>
      obtain ⟨x, -, hx⟩ := bind_eq_ok.mp h
      exact lt_of_readNatural hx
    | _ => exact (Outline.wrongType_ne_ok h).elim
  | _, .integer, depth, o, a, _, h => by
    cases o with
    | number n =>
      obtain ⟨x, -, hx⟩ := bind_eq_ok.mp h
      exact fits_of_readInteger hx
    | _ => exact (Outline.wrongType_ne_ok h).elim
  | _, .any, depth, o, a, _, h => Outline.readAny_sound h
  | _, .optional s, depth, o, a, hs, h => by
    by_cases ho : o = .null
    · subst ho
      cases h
      simp [Shape.Fits]
    rw [readOutline_optional_of ho] at h
    obtain ⟨b, hb, rfl⟩ := map_eq_ok.mp h
    intro c hc
    obtain rfl := Option.some.inj hc
    exact ⟨Shape.fits_of_readOutline s hs hb, s.write_ne_null_of_readOutline ho hb⟩
  | _, .list s, depth, o, a, hs, h => by
    cases o with
    | array items e =>
      simp only [Shape.readOutline, bind_eq_ok] at h
      obtain ⟨d, -, as, has, _, -, h⟩ := h
      cases h
      exact readEach_all (fun o b hb => Shape.fits_of_readOutline s hs hb) has
    | _ => exact (Outline.wrongType_ne_ok h).elim
  | _, .table s, depth, o, a, hs, h => by
    cases o with
    | object members wrongName e =>
      simp only [Shape.readOutline, bind_eq_ok] at h
      obtain ⟨d, -, t, ht, _, -, h⟩ := h
      cases h
      exact readEntries_all (fun o b hb => Shape.fits_of_readOutline s hs hb) allEntries_nil ht
    | _ => exact (Outline.wrongType_ne_ok h).elim
  | _, .choice variants write, depth, o, a, hs, h => by
    cases o with
    | string b =>
      obtain ⟨name, -, hname⟩ := bind_eq_ok.mp h
      exact hs name a (lookup_of_findVariant hname)
    | object members wrongName e =>
      simp only [Shape.readOutline, bind_eq_ok] at h
      obtain ⟨d, -, h⟩ := h
      obtain ⟨name, hname⟩ := exists_findVariant_of_readVariantObject h
      exact hs name a (lookup_of_findVariant hname)
    | _ => simp [Shape.readOutline] at h
  | _, .record name fields make parts, depth, o, a, hs, h => by
    cases o with
    | array items e =>
      simp only [Shape.readOutline, bind_eq_ok] at h
      obtain ⟨d, -, ⟨row, left⟩, hrow, h⟩ := h
      obtain rfl : make row = a := by
        split_ifs at h
        · obtain ⟨_, -, h⟩ := bind_eq_ok.mp h
          exact Except.ok.inj h
        · cases h
      exact fits_of_make hs (Fields.fits_of_readRow fields hs.1 hrow)
    | object members wrongName e =>
      simp only [Shape.readOutline, bind_eq_ok] at h
      obtain ⟨d, -, known, -, _, -, row, hrow, h⟩ := h
      cases h
      exact fits_of_make hs (Fields.fits_of_readMembers fields hs.1 hrow)
    | _ => exact (Outline.wrongType_ne_ok h).elim

theorem Fields.fits_of_readMembers : ∀ {ρ : Type} (fields : Fields ρ) {depth : Nat}
    {known : List (String × Outline)} {row : ρ}, fields.Lawful →
    fields.readMembers depth known = .ok row → fields.Fits row
  | _, .nil, _, _, _, _, _ => trivial
  | _, .cons n absent omitted s rest, depth, known, row, hf, h => by
    obtain ⟨hs, homitted, habsent, hrest⟩ := hf
    simp only [Fields.readMembers] at h
    cases ho : known.lookup n with
    | none =>
      simp only [ho, bind_eq_ok] at h
      obtain ⟨a, ha, row, hrow, h⟩ := h
      cases h
      exact ⟨habsent a ha, homitted a, Fields.fits_of_readMembers rest hrest hrow⟩
    | some o =>
      simp only [ho, bind_eq_ok] at h
      obtain ⟨a, ha, row, hrow, h⟩ := h
      cases h
      exact ⟨Shape.fits_of_readOutline s hs ha, homitted a,
        Fields.fits_of_readMembers rest hrest hrow⟩

theorem Fields.fits_of_readRow : ∀ {ρ : Type} (fields : Fields ρ) {depth position : Nat}
    {wanted : String} {items left : List Outline} {e : Ending} {row : ρ}, fields.Lawful →
    fields.readRow depth wanted position items e = .ok (row, left) → fields.Fits row
  | _, .nil, _, _, _, _, _, _, _, _, _ => trivial
  | _, .cons n absent omitted s rest, depth, position, wanted, items, left, e, row, hf, h => by
    obtain ⟨hs, homitted, habsent, hrest⟩ := hf
    simp only [Fields.readRow] at h
    cases items with
    | nil =>
      simp only [bind_eq_ok] at h
      obtain ⟨a, ha, ⟨row, left⟩, hrow, h⟩ := h
      cases h
      obtain ⟨_, -, ha⟩ : ∃ u, e.ofArray = .ok u ∧ absent.inArray wanted position = .ok a :=
        bind_eq_ok.mp ha
      exact ⟨habsent a (Absent.inObject_of_inArray ha n), homitted a,
        Fields.fits_of_readRow rest hrest hrow⟩
    | cons o items =>
      simp only [bind_eq_ok] at h
      obtain ⟨a, ha, ⟨row, left⟩, hrow, h⟩ := h
      cases h
      exact ⟨Shape.fits_of_readOutline s hs ha, homitted a, Fields.fits_of_readRow rest hrest hrow⟩

end

/-! ## From a value -/

mutual

theorem Shape.fits_of_readJson : ∀ {α : Type} (s : Shape α) {j : Json} {a : α}, s.Lawful →
    j.Every Sound → s.readJson j = .ok a → s.Fits a
  | _, .text, _, _, _, _, _ | _, .flag, _, _, _, _, _ => trivial
  | _, .word _ read write, j, a, hs, _, h => by
    cases j with
    | string t => exact hs t a (refusal_eq_ok.mp h)
    | _ => simp [Shape.readJson] at h
  | _, .natural wanted bits, j, a, _, _, h => by
    cases j with
    | number n => exact lt_of_readNatural h
    | _ => simp [Shape.readJson] at h
  | _, .integer, j, a, _, _, h => by
    cases j with
    | number n => exact fits_of_readInteger h
    | _ => simp [Shape.readJson] at h
  | _, .any, j, a, _, hj, h => by
    cases h
    exact hj
  | _, .optional s, j, a, hs, hj, h => by
    by_cases hnull : j = .null
    · subst hnull
      cases h
      simp [Shape.Fits]
    rw [readJson_optional_eq hnull] at h
    obtain ⟨b, hb, rfl⟩ := map_eq_ok.mp h
    intro c hc
    obtain rfl := Option.some.inj hc
    exact ⟨Shape.fits_of_readJson s hs hj hb, s.write_ne_null_of_readJson hnull hb⟩
  | _, .list s, j, a, hs, hj, h => by
    cases j with
    | array items =>
      exact eachJson_all
        (fun v hv b hb => Shape.fits_of_readJson s hs ((every_array.mp hj).2 v hv) hb) h
    | _ => simp [Shape.readJson] at h
  | _, .table s, j, a, hs, hj, h => by
    cases j with
    | object ms =>
      exact entriesJson_all
        (fun e he b hb => Shape.fits_of_readJson s hs ((every_object.mp hj).2 e he) hb)
        allEntries_nil h
    | _ => simp [Shape.readJson] at h
  | _, .choice variants write, j, a, hs, _, h => by
    have hname : ∃ name, findVariant variants name = .ok a := by
      unfold Shape.readJson at h
      split at h
      · exact ⟨_, h⟩
      · obtain ⟨b, hb, h⟩ := bind_eq_ok.mp h
        split_ifs at h
        cases h
        exact ⟨_, hb⟩
      · cases h
      · cases h
    obtain ⟨name, hname⟩ := hname
    exact hs name a (lookup_of_findVariant hname)
  | _, .record name fields make parts, j, a, hs, hj, h => by
    cases j with
    | array items =>
      simp only [Shape.readJson, bind_eq_ok] at h
      obtain ⟨row, hrow, h⟩ := h
      split_ifs at h
      cases h
      exact fits_of_make hs (Fields.fits_of_rowJson fields hs.1 (every_array.mp hj).2 hrow)
    | object ms =>
      simp only [Shape.readJson, bind_eq_ok] at h
      obtain ⟨_, -, row, hrow, h⟩ := h
      cases h
      exact fits_of_make hs (Fields.fits_of_membersJson fields hs.1 (every_object.mp hj).2 hrow)
    | _ => simp [Shape.readJson] at h

theorem Fields.fits_of_membersJson : ∀ {ρ : Type} (fields : Fields ρ) {ms : List (String × Json)}
    {row : ρ}, fields.Lawful → (∀ e ∈ ms, e.2.Every Sound) → fields.membersJson ms = .ok row →
    fields.Fits row
  | _, .nil, _, _, _, _, _ => trivial
  | _, .cons n absent omitted s rest, ms, row, hf, hms, h => by
    obtain ⟨hs, homitted, habsent, hrest⟩ := hf
    obtain ⟨ha, hrow⟩ := Fields.membersJson_cons.mp h
    have hfits : s.Fits row.1 := by
      cases hj : Table.find? ms n with
      | some j =>
        rw [hj] at ha
        exact Shape.fits_of_readJson s hs (hms _ (Table.mem_of_find? hj)) ha
      | none => exact habsent row.1 (by rwa [hj] at ha)
    exact ⟨hfits, homitted row.1, Fields.fits_of_membersJson rest hrest hms hrow⟩

theorem Fields.fits_of_rowJson : ∀ {ρ : Type} (fields : Fields ρ) {position : Nat} {wanted : String}
    {items : List Json} {row : ρ}, fields.Lawful → (∀ j ∈ items, j.Every Sound) →
    fields.rowJson wanted position items = .ok row → fields.Fits row
  | _, .nil, _, _, _, _, _, _, _ => trivial
  | _, .cons n absent omitted s rest, position, wanted, items, row, hf, hitems, h => by
    obtain ⟨hs, homitted, habsent, hrest⟩ := hf
    have htail : ∀ j ∈ items.tail, j.Every Sound := fun j hj => hitems j (List.mem_of_mem_tail hj)
    simp only [Fields.rowJson] at h
    cases items with
    | nil =>
      simp only [bind_eq_ok] at h
      obtain ⟨a, ha, row, hrow, h⟩ := h
      cases h
      exact ⟨habsent a (Absent.inObject_of_inArray ha n), homitted a,
        Fields.fits_of_rowJson rest hrest htail hrow⟩
    | cons j items =>
      simp only [bind_eq_ok] at h
      obtain ⟨a, ha, row, hrow, h⟩ := h
      cases h
      exact ⟨Shape.fits_of_readJson s hs (hitems j List.mem_cons_self) ha, homitted a,
        Fields.fits_of_rowJson rest hrest htail hrow⟩

end

end Supervisor.Json
