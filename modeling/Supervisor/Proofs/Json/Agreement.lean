import Supervisor.Proofs.Json.Reading
/-!
# Reading from texts and from values

Typed data are read straight from a text, or from the value that the text holds. What the first way
accepts the second way accepts too, with the same outcome. The two see different things: the one
reads every member in the order of the text, the other has the members sorted, the last of a name
kept.
-/
namespace Supervisor.Json

variable {α β ρ : Type}

/-- A text of which a value is made, and which is read further. -/
theorem exists_of_map_of_bind {ε γ : Type} {x : Except ε α} {f : α → β} {g : α → Except ε γ} {b : β}
    {c : γ} (hf : x.map f = .ok b) (hg : x.bind g = .ok c) : ∃ a, f a = b ∧ g a = .ok c := by
  obtain ⟨a, rfl, hb⟩ := map_eq_ok.mp hf
  exact ⟨a, hb, hg⟩

theorem Outline.wrongType_ne_ok {o : Outline} {wanted : String} {a : α} :
    o.wrongType wanted ≠ .ok a := by
  cases h : o.found <;> simp [Outline.wrongType, h, bind, Except.bind]

theorem Outline.eq_null_of_readAny {depth : Nat} {o : Outline} (h : o.readAny depth = .ok .null) :
    o = .null := by
  cases o with
  | null => rfl
  | _ => simp [readAny, bind_eq_ok, map_eq_ok, pure, Except.pure] at h

theorem Outline.length_readItems {depth : Nat} : ∀ {items : List Outline} {js : List Json},
    readItems depth items = .ok js → js.length = items.length
  | [], js, h => by
    cases h
    rfl
  | o :: rest, js, h => by
    simp only [readItems, bind_eq_ok] at h
    obtain ⟨j, -, js', hjs, h⟩ := h
    cases h
    simp [length_readItems hjs]

/-- The one member of an object that stands for a variant. -/
theorem readVariantObject_eq_ok {variants : List (String × α)} {members : List (StringBody × Outline)}
    {wrongName : Option Outline} {e : Ending} {depth : Nat} {a : α} {ms : Table Json}
    (h : readVariantObject variants members wrongName e = .ok a)
    (hms : Outline.readMembers depth members [] = .ok ms) :
    ∃ name, ms = [(name, .null)] ∧ findVariant variants name = .ok a := by
  unfold readVariantObject at h
  split at h
  · split at h <;> first | exact (Outline.wrongType_ne_ok h).elim | cases h
  · next b o rest =>
    simp only [bind_eq_ok] at h
    obtain ⟨name, hname, a', ha', _, hunit, hend⟩ := h
    obtain rfl : o = .null := by
      cases o <;> first | rfl | exact (Outline.wrongType_ne_ok hunit).elim
    split_ifs at hend with hlast
    split at hend <;> cases hend
    obtain rfl : rest = [] := by simpa using (Bool.and_eq_true_iff.mp hlast).1
    simp only [Outline.readMembers, Outline.readAny, bind_eq_ok] at hms
    obtain ⟨name', hname', _, hnull, hms⟩ := hms
    cases hnull
    cases hms
    obtain rfl : name = name' := by simpa [hname] using hname'
    exact ⟨name, rfl, ha'⟩

theorem not_mem_of_lookup_none {known : List (String × β)} {name : String}
    (h : known.lookup name = none) (b : β) : (name, b) ∉ known := by
  intro hmem
  have hne := List.lookup_eq_none_iff.mp h _ hmem
  simp at hne

/-- The members that a record knows, as they were picked from a text, against all members of the
text. -/
structure Picked (depth : Nat) (check : String → Option (Outline → Except ReadError Unit))
    (known : List (String × Outline)) (t : Table Json) : Prop where
  held : ∀ n o, (n, o) ∈ known → (check n).isSome ∧ ∃ j, t.find? n = some j ∧ o.readAny depth = .ok j
  missing : ∀ n, (check n).isSome → (∀ o, (n, o) ∉ known) → t.find? n = none

section
variable {depth : Nat} {check : String → Option (Outline → Except ReadError Unit)}
  {known known' : List (String × Outline)} {t t' : Table Json}

theorem picked_nil : Picked depth check [] [] := ⟨by simp, by simp⟩

theorem Picked.reverse (h : Picked depth check known t) : Picked depth check known.reverse t :=
  ⟨fun n o ho => h.held n o (List.mem_reverse.mp ho),
    fun n hn hno => h.missing n hn fun o ho => hno o (List.mem_reverse.mpr ho)⟩

/-- A member that the record does not know. -/
theorem Picked.unknown (h : Picked depth check known t) {name : String} (hname : check name = none)
    (j : Json) : Picked depth check known (t.insert name j) := by
  have hne : ∀ n, (check n).isSome → n ≠ name := by
    rintro n hn rfl
    simp [hname] at hn
  refine ⟨fun n o ho => ?_, fun n hn hno => ?_⟩
  · obtain ⟨hn, held⟩ := h.held n o ho
    exact ⟨hn, by rwa [Table.find?_insert, if_neg (hne n hn)]⟩
  · rw [Table.find?_insert, if_neg (hne n hn)]
    exact h.missing n hn hno

/-- A member that the record knows and that was not there before. -/
theorem Picked.pick (h : Picked depth check known t) {name : String}
    (hname : (check name).isSome) (hnew : known.lookup name = none) {o : Outline} {j : Json}
    (hj : o.readAny depth = .ok j) : Picked depth check ((name, o) :: known) (t.insert name j) := by
  refine ⟨fun n o' ho => ?_, fun n hn hno => ?_⟩
  · rw [Table.find?_insert]
    rcases List.mem_cons.mp ho with he | hold
    · obtain ⟨rfl, rfl⟩ := Prod.mk.inj he
      exact ⟨hname, j, by simp, hj⟩
    · have hne : n ≠ name := by
        rintro rfl
        exact not_mem_of_lookup_none hnew o' hold
      simpa [hne] using h.held n o' hold
  · have hne : n ≠ name := by
      rintro rfl
      exact hno o List.mem_cons_self
    rw [Table.find?_insert, if_neg hne]
    exact h.missing n hn fun o' ho' => hno o' (List.mem_cons_of_mem _ ho')

theorem Picked.readAll {members : List (StringBody × Outline)} (h : Picked depth check known t)
    (hk : readKnown check members known = .ok known')
    (ht : Outline.readMembers depth members t = .ok t') : Picked depth check known' t' := by
  induction members generalizing known t with
  | nil =>
    cases hk
    cases ht
    exact h.reverse
  | cons m rest ih =>
    obtain ⟨b, o⟩ := m
    simp only [readKnown, bind_eq_ok] at hk
    simp only [Outline.readMembers, bind_eq_ok] at ht
    obtain ⟨name, hname, hk⟩ := hk
    obtain ⟨name', hname', j, hj, ht⟩ := ht
    obtain rfl : name = name' := by simpa [hname] using hname'
    cases hc : check name with
    | none =>
      simp only [hc, bind_eq_ok] at hk
      obtain ⟨_, -, hk⟩ := hk
      exact ih (h.unknown hc j) hk ht
    | some read =>
      simp only [hc] at hk
      split_ifs at hk with hdup
      obtain ⟨_, -, hk⟩ := bind_eq_ok.mp hk
      exact ih (h.pick (by simp [hc]) (Option.not_isSome_iff_eq_none.mp hdup) hj) hk ht

/-- What a record finds of a member that it knows. -/
theorem Picked.lookup (h : Picked depth check known t) {name : String} (hn : (check name).isSome) :
    (known.lookup name).map (·.readAny depth) = (t.find? name).map .ok := by
  cases ho : known.lookup name with
  | none => simp [h.missing name hn (not_mem_of_lookup_none ho)]
  | some o =>
    have hmem : (name, o) ∈ known := by
      obtain ⟨l₁, l₂, rfl, -⟩ := List.lookup_eq_some_iff.mp ho
      simp
    obtain ⟨-, j, hj, hread⟩ := h.held name o hmem
    simp [hj, hread]

end

theorem readEach_agrees {depth : Nat} {read : Outline → Except ReadError α}
    {readValue : Json → Except ReadError α}
    (h : ∀ {o a j}, read o = .ok a → o.readAny depth = .ok j → readValue j = .ok a) :
    ∀ {items : List Outline} {as : List α} {js : List Json}, readEach read items = .ok as →
      Outline.readItems depth items = .ok js → eachJson readValue js = .ok as
  | [], as, js, has, hjs => by
    cases has
    cases hjs
    rfl
  | o :: rest, as, js, has, hjs => by
    simp only [readEach, Outline.readItems, bind_eq_ok] at has hjs
    obtain ⟨a, ha, as', has, h₁⟩ := has
    obtain ⟨j, hj, js', hjs, h₂⟩ := hjs
    cases h₁
    cases h₂
    simp [eachJson, h ha hj, readEach_agrees h has hjs, bind, Except.bind, pure, Except.pure]

theorem readEntries_agrees {depth : Nat} {read : Outline → Except ReadError α}
    {readValue : Json → Except ReadError α}
    (h : ∀ {o a j}, read o = .ok a → o.readAny depth = .ok j → readValue j = .ok a)
    {members : List (StringBody × Outline)} {t t' : Table α} {ms ms' : Table Json}
    (ht : readEntries read members t = .ok t')
    (hms : Outline.readMembers depth members ms = .ok ms') (he : Entries readValue ms t) :
    Entries readValue ms' t' := by
  induction members generalizing t ms with
  | nil =>
    cases ht
    cases hms
    exact he
  | cons m rest ih =>
    obtain ⟨b, o⟩ := m
    simp only [readEntries, Outline.readMembers, bind_eq_ok] at ht hms
    obtain ⟨name, hname, a, ha, ht⟩ := ht
    obtain ⟨name', hname', j, hj, hms⟩ := hms
    obtain rfl : name = name' := by simpa [hname] using hname'
    exact ih ht hms (he.insert name (h ha hj))

mutual

/-- What is read from a text is read from the value that the text holds. -/
theorem Shape.readJson_of_readOutline : ∀ {α : Type} (s : Shape α) {depth : Nat} {o : Outline} {a : α}
    {j : Json}, s.readOutline depth o = .ok a → o.readAny depth = .ok j → s.readJson j = .ok a
  | _, .text, depth, o, a, j, ha, hj => by
    cases o with
    | string b =>
      obtain ⟨x, hx, rfl⟩ := map_eq_ok.mp hj
      exact hx.symm.trans ha
    | _ => exact (Outline.wrongType_ne_ok ha).elim
  | _, .word wanted read _, depth, o, a, j, ha, hj => by
    cases o with
    | string b =>
      obtain ⟨x, rfl, hx⟩ := exists_of_map_of_bind hj ha
      exact hx
    | _ => exact (Outline.wrongType_ne_ok ha).elim
  | _, .natural wanted bits, depth, o, a, j, ha, hj => by
    cases o with
    | number n =>
      obtain ⟨x, rfl, hx⟩ := exists_of_map_of_bind hj ha
      exact hx
    | _ => exact (Outline.wrongType_ne_ok ha).elim
  | _, .integer, depth, o, a, j, ha, hj => by
    cases o with
    | number n =>
      obtain ⟨x, rfl, hx⟩ := exists_of_map_of_bind hj ha
      exact hx
    | _ => exact (Outline.wrongType_ne_ok ha).elim
  | _, .flag, depth, o, a, j, ha, hj => by
    cases o with
    | bool b =>
      cases hj
      exact ha
    | _ => exact (Outline.wrongType_ne_ok ha).elim
  | _, .any, depth, o, a, j, ha, hj => hj.symm.trans ha
  | _, .optional s, depth, o, a, j, ha, hj => by
    cases o with
    | null =>
      cases hj
      exact ha
    | _ =>
      obtain ⟨b, hb, rfl⟩ := map_eq_ok.mp ha
      have hread := Shape.readJson_of_readOutline s hb hj
      cases j with
      | null => cases Outline.eq_null_of_readAny hj
      | _ => exact map_eq_ok.mpr ⟨b, hread, rfl⟩
  | _, .list s, depth, o, a, j, ha, hj => by
    cases o with
    | array items e =>
      simp only [Shape.readOutline, Outline.readAny, bind_eq_ok] at ha hj
      obtain ⟨d, hd, as, has, _, -, ha⟩ := ha
      obtain ⟨d', hd', js, hjs, _, -, hj⟩ := hj
      obtain rfl : d = d' := by simpa [hd] using hd'
      cases ha
      cases hj
      exact readEach_agrees (Shape.readJson_of_readOutline s) has hjs
    | _ => exact (Outline.wrongType_ne_ok ha).elim
  | _, .table s, depth, o, a, j, ha, hj => by
    cases o with
    | object members wrongName e =>
      have htidy := Outline.readAny_tidy hj
      simp only [Shape.readOutline, Outline.readAny, bind_eq_ok] at ha hj
      obtain ⟨d, hd, t, ht, _, -, ha⟩ := ha
      obtain ⟨d', hd', ms, hms, _, -, hj⟩ := hj
      obtain rfl : d = d' := by simpa [hd] using hd'
      cases ha
      cases hj
      exact (entriesJson_eq_ok_of_ordered htidy.ordered).mpr
        (readEntries_agrees (Shape.readJson_of_readOutline s) ht hms .nil)
    | _ => exact (Outline.wrongType_ne_ok ha).elim
  | _, .choice variants _, depth, o, a, j, ha, hj => by
    cases o with
    | string b =>
      obtain ⟨x, rfl, hx⟩ := exists_of_map_of_bind hj ha
      exact hx
    | object members wrongName e =>
      simp only [Shape.readOutline, Outline.readAny, bind_eq_ok] at ha hj
      obtain ⟨-, -, ha⟩ := ha
      obtain ⟨d, -, ms, hms, _, -, hj⟩ := hj
      cases hj
      obtain ⟨name, rfl, hname⟩ := readVariantObject_eq_ok ha hms
      simp [Shape.readJson, hname, bind, Except.bind, isNull]
    | _ => simp [Shape.readOutline] at ha
  | _, .record name fields make _, depth, o, a, j, ha, hj => by
    cases o with
    | array items e =>
      simp only [Shape.readOutline, Outline.readAny, bind_eq_ok] at ha hj
      obtain ⟨d, hd, ⟨row, left⟩, hrow, ha⟩ := ha
      obtain ⟨d', hd', js, hjs, _, -, hj⟩ := hj
      obtain rfl : d = d' := by simpa [hd] using hd'
      cases hj
      obtain ⟨hread, rfl⟩ := Fields.rowJson_of_readRow fields hrow hjs
      split_ifs at ha with hfull
      swap
      · simp [bind, Except.bind] at ha
      obtain ⟨_, -, ha⟩ := bind_eq_ok.mp ha
      cases ha
      have hlength : js.length ≤ fields.size := by
        rw [Outline.length_readItems hjs]
        simpa using hfull
      simp [Shape.readJson, hread, hlength, bind, Except.bind, pure, Except.pure]
    | object members wrongName e =>
      have htidy := Outline.readAny_tidy hj
      simp only [Shape.readOutline, Outline.readAny, bind_eq_ok] at ha hj
      obtain ⟨d, hd, known, hknown, _, -, row, hrow, ha⟩ := ha
      obtain ⟨d', hd', ms, hms, _, -, hj⟩ := hj
      obtain rfl : d = d' := by simpa [hd] using hd'
      cases ha
      cases hj
      have hpicked := picked_nil.readAll hknown hms
      refine (readJson_record_object htidy.ordered).mpr ⟨row, ?_, rfl⟩
      exact Fields.membersJson_of_readMembers fields hrow fun n hn => hpicked.lookup hn
    | _ => exact (Outline.wrongType_ne_ok ha).elim

theorem Fields.membersJson_of_readMembers : ∀ {ρ : Type} (fields : Fields ρ) {depth : Nat}
    {known : List (String × Outline)} {ms : Table Json} {row : ρ},
    fields.readMembers depth known = .ok row →
    (∀ n, (fields.check depth n).isSome →
      (known.lookup n).map (·.readAny depth) = (ms.find? n).map .ok) →
    fields.membersJson ms = .ok row
  | _, .nil, depth, known, ms, row, h, hk => rfl
  | _, .cons n absent omitted s rest, depth, known, ms, row, h, hk => by
    have hn := hk n (by simp [Fields.check])
    have hrest : ∀ m, (rest.check depth m).isSome →
        (known.lookup m).map (·.readAny depth) = (ms.find? m).map .ok := by
      intro m hm
      refine hk m ?_
      simp only [Fields.check]
      split_ifs
      · rfl
      · exact hm
    refine Fields.membersJson_cons.mpr ?_
    simp only [Fields.readMembers] at h
    cases ho : known.lookup n with
    | none =>
      simp only [ho, bind_eq_ok] at h hn
      obtain ⟨a, ha, row, hrow, h⟩ := h
      cases h
      have hnone : ms.find? n = none := by simpa using hn.symm
      exact ⟨by rw [hnone]; exact ha, Fields.membersJson_of_readMembers rest hrow hrest⟩
    | some o =>
      simp only [ho, bind_eq_ok, Option.map_some] at h hn
      obtain ⟨a, ha, row, hrow, h⟩ := h
      cases h
      obtain ⟨j, hj, hread⟩ := Option.map_eq_some_iff.mp hn.symm
      exact ⟨by rw [hj]; exact Shape.readJson_of_readOutline s ha hread.symm,
        Fields.membersJson_of_readMembers rest hrow hrest⟩

theorem Fields.rowJson_of_readRow : ∀ {ρ : Type} (fields : Fields ρ) {depth position : Nat}
    {wanted : String} {items left : List Outline} {e : Ending} {js : List Json} {row : ρ},
    fields.readRow depth wanted position items e = .ok (row, left) →
    Outline.readItems depth items = .ok js →
    fields.rowJson wanted position js = .ok row ∧ left = items.drop fields.size
  | _, .nil, depth, position, wanted, items, left, e, js, row, h, hjs => by
    cases h
    exact ⟨rfl, rfl⟩
  | _, .cons n absent omitted s rest, depth, position, wanted, items, left, e, js, row, h, hjs => by
    simp only [Fields.readRow] at h
    cases items with
    | nil =>
      simp only [bind_eq_ok] at h
      obtain ⟨a, ha, ⟨row', left'⟩, hrow, h⟩ := h
      cases h
      cases hjs
      obtain ⟨_, -, ha⟩ : ∃ u, e.ofArray = .ok u ∧ absent.inArray wanted position = .ok a :=
        bind_eq_ok.mp ha
      have hempty : Outline.readItems depth [] = .ok [] := rfl
      obtain ⟨hrest, rfl⟩ := Fields.rowJson_of_readRow rest hrow hempty
      refine ⟨?_, by simp⟩
      simp [Fields.rowJson, ha, hrest, bind, Except.bind, pure, Except.pure]
    | cons o items =>
      simp only [bind_eq_ok, Outline.readItems] at h hjs
      obtain ⟨a, ha, ⟨row', left'⟩, hrow, h⟩ := h
      obtain ⟨j, hj, js, hjs, h'⟩ := hjs
      cases h
      cases h'
      obtain ⟨hrest, hleft⟩ := Fields.rowJson_of_readRow rest hrow hjs
      refine ⟨?_, hleft⟩
      simp [Fields.rowJson, Shape.readJson_of_readOutline s ha hj, hrest, bind, Except.bind, pure,
        Except.pure]

end

end Supervisor.Json
