import Supervisor.Proofs.Json.Agreement
import Supervisor.Proofs.Json.RoundTrip
/-!
# Records as they stand in a text

A record is read from an object in which the name of each field stands once at most, whatever else the
object has, or from an array with the values of the fields in order. `membersFor` finds the members of a
record without regard to what is read from them.
-/
namespace Supervisor.Json

variable {α β ρ : Type}

/-! ## Members by their names -/

def named : List (StringBody × Outline) → Option (List (String × Outline))
  | [] => some []
  | (b, o) :: rest => do
    let name ← b.text.toOption
    let ms ← named rest
    return (name, o) :: ms

/-- The members of a record with these names. Members with other names are passed over, which needs
less of them than reading. -/
def membersFor (names : List String) : Outline → Option (List (String × Outline))
  | .object members none .closed => do
    let ms ← named members
    let own := ms.filter fun m => m.1 ∈ names
    if (own.map Prod.fst).Nodup ∧ ∀ m ∈ ms, m.1 ∈ names ∨ m.2.skip.isOk then some own else none
  | .array items .closed => if items.length ≤ names.length then some (names.zip items) else none
  | _ => none

/-- A member that has to be there. -/
def neededIn (ms : List (String × Outline)) (name : String) (read : Outline → Option α) : Option α :=
  (ms.lookup name).bind read

/-- A member that may be absent or null. -/
def optionalIn (ms : List (String × Outline)) (name : String) (read : Outline → Option α) :
    Option (Option α) :=
  match ms.lookup name with
  | none | some .null => some none
  | some o => (read o).map some

/-- The text of a string. -/
def Outline.text? : Outline → Option String
  | .string b => b.text.toOption
  | _ => none

/-- A whole number that fits 64 bits with a sign. -/
def Outline.whole? : Outline → Option Int
  | .number n =>
    match n.value with
    | .ok (.whole z) => if -2 ^ 63 ≤ z ∧ z < 2 ^ 63 then some z else none
    | _ => none
  | _ => none

/-! ## Results without their errors -/

theorem toOption_eq_some {ε : Type} {x : Except ε α} {a : α} : x.toOption = some a ↔ x = .ok a := by
  cases x <;> simp [Except.toOption]

theorem toOption_bind {ε : Type} (x : Except ε α) (f : α → Except ε β) :
    (x >>= f).toOption = x.toOption.bind fun a => (f a).toOption := by
  cases x <;> rfl

theorem toOption_map {ε : Type} (x : Except ε α) (f : α → β) :
    (x.map f).toOption = x.toOption.map f := by
  cases x <;> rfl

theorem mishap_eq_ok {x : Except Mishap α} {a : α} : mishap x = .ok a ↔ x = .ok a := by
  cases x <;> simp [mishap]

theorem toOption_mishap (x : Except Mishap α) : (mishap x).toOption = x.toOption := by
  cases x <;> rfl

theorem isOk_iff {ε : Type} {x : Except ε Unit} : x.isOk ↔ x = .ok () := by
  cases x <;> simp [Except.isOk, Except.toBool]

/-! ## Reading the members -/

section
variable {check : String → Option (Outline → Except ReadError Unit)} {depth : Nat}

/-- The member can be read if the record knows it, and passed over if not. -/
def Passes (check : String → Option (Outline → Except ReadError Unit)) (m : String × Outline) : Prop :=
  match check m.1 with
  | some read => read m.2 = .ok ()
  | none => m.2.skip = .ok ()

theorem lookup_of_mem {known : List (String × Outline)} (hk : (known.map Prod.fst).Nodup) {name : String}
    {o : Outline} (h : (name, o) ∈ known) : known.lookup name = some o := by
  induction known with
  | nil => cases h
  | cons m known ih =>
    obtain ⟨n, o'⟩ := m
    obtain ⟨hn, hk⟩ := List.nodup_cons.mp hk
    rcases List.mem_cons.mp h with heq | h
    · cases heq
      exact List.lookup_cons_self
    · have hne : name ≠ n := fun heq => hn (List.mem_map.mpr ⟨(name, o), h, heq⟩)
      rw [List.lookup_cons, beq_eq_false_iff_ne.mpr hne]
      exact ih hk h

theorem named_cons {b : StringBody} {o : Outline} {rest : List (StringBody × Outline)}
    {ms : List (String × Outline)} : named ((b, o) :: rest) = some ms ↔
      ∃ name ms', b.text = .ok name ∧ named rest = some ms' ∧ (name, o) :: ms' = ms := by
  simp only [named, Option.bind_eq_bind, Option.bind_eq_some_iff, toOption_eq_some, Option.pure_def,
    Option.some.injEq]
  exact ⟨fun ⟨name, hname, ms', hms, h⟩ => ⟨name, ms', hname, hms, h⟩,
    fun ⟨name, ms', hname, hms, h⟩ => ⟨name, hname, ms', hms, h⟩⟩

theorem lookup_eq_none_iff {known : List (String × Outline)} {name : String} :
    known.lookup name = none ↔ name ∉ known.map Prod.fst := by
  simp only [List.lookup_eq_none_iff, List.mem_map, not_exists, not_and]
  exact ⟨fun h m hm heq => by simpa [heq] using h m hm, fun h m hm => by simpa using Ne.symm (h m hm)⟩

theorem readKnown_cons {b : StringBody} {o : Outline} {rest : List (StringBody × Outline)}
    {known ks : List (String × Outline)} : readKnown check ((b, o) :: rest) known = .ok ks ↔
      ∃ name, b.text = .ok name ∧ Passes check (name, o) ∧
        if (check name).isSome then
          name ∉ known.map Prod.fst ∧ readKnown check rest ((name, o) :: known) = .ok ks
        else readKnown check rest known = .ok ks := by
  simp only [readKnown, bind_eq_ok, mishap_eq_ok]
  refine exists_congr fun name => and_congr_right fun _ => ?_
  cases hc : check name with
  | none => simp [Passes, hc, bind_eq_ok, mishap_eq_ok, Unique.exists_iff]
  | some read =>
    cases hk : known.lookup name with
    | none =>
      have hnew := lookup_eq_none_iff.mp hk
      simp [Passes, hc, bind_eq_ok, hnew, Unique.exists_iff]
    | some o' =>
      have hold : name ∈ known.map Prod.fst := by
        by_contra hnot
        simp [lookup_eq_none_iff.mpr hnot] at hk
      simp [hold]

theorem nodup_cons_of {known : List (String × Outline)} (hk : (known.map Prod.fst).Nodup)
    {name : String} {o : Outline} (hnew : name ∉ known.map Prod.fst) :
    (((name, o) :: known).map Prod.fst).Nodup := List.nodup_cons.mpr ⟨hnew, hk⟩

/-- What the record knows is picked from members that all pass, and nothing is picked twice. -/
theorem readKnown_eq_ok {members : List (StringBody × Outline)} {known ks : List (String × Outline)}
    (hk : (known.map Prod.fst).Nodup) :
    readKnown check members known = .ok ks ↔
      ∃ ms, named members = some ms ∧ (∀ m ∈ ms, Passes check m) ∧ (ks.map Prod.fst).Nodup ∧
        ks = known.reverse ++ ms.filter fun m => (check m.1).isSome := by
  induction members generalizing known with
  | nil =>
    simp only [readKnown, Except.ok.injEq]
    constructor
    · rintro rfl
      exact ⟨[], rfl, by simp, by simpa using List.nodup_reverse.mpr hk, by simp⟩
    · rintro ⟨ms, hms, -, -, rfl⟩
      obtain rfl : [] = ms := Option.some.inj hms
      simp
  | cons m rest ih =>
    obtain ⟨b, o⟩ := m
    rw [readKnown_cons]
    constructor
    · rintro ⟨name, hname, hpass, h⟩
      split_ifs at h with hc
      · obtain ⟨hnew, h⟩ := h
        obtain ⟨ms, hms, hall, hnodup, rfl⟩ := (ih (nodup_cons_of hk hnew)).mp h
        exact ⟨(name, o) :: ms, named_cons.mpr ⟨name, ms, hname, hms, rfl⟩,
          List.forall_mem_cons.mpr ⟨hpass, hall⟩, hnodup, by simp [hc]⟩
      · obtain ⟨ms, hms, hall, hnodup, rfl⟩ := (ih hk).mp h
        exact ⟨(name, o) :: ms, named_cons.mpr ⟨name, ms, hname, hms, rfl⟩,
          List.forall_mem_cons.mpr ⟨hpass, hall⟩, hnodup, by simp [hc]⟩
    · rintro ⟨_, hnamed, hall, hnodup, rfl⟩
      obtain ⟨name, ms, hname, hms, rfl⟩ := named_cons.mp hnamed
      obtain ⟨hpass, hall⟩ := List.forall_mem_cons.mp hall
      refine ⟨name, hname, hpass, ?_⟩
      by_cases hc : (check name).isSome
      · have hnew : name ∉ known.map Prod.fst := by
          intro hold
          rw [List.filter_cons_of_pos (by simpa using hc), List.map_append, List.map_reverse] at hnodup
          exact (List.nodup_append.mp hnodup).2.2 name (List.mem_reverse.mpr hold) name (by simp) rfl
        rw [if_pos hc]
        exact ⟨hnew, (ih (nodup_cons_of hk hnew)).mpr ⟨ms, hms, hall, hnodup, by simp [hc]⟩⟩
      · rw [if_neg hc]
        exact (ih hk).mpr ⟨ms, hms, hall, hnodup, by simp [hc]⟩

end

/-! ## Fields -/

theorem Fields.isSome_check : ∀ {ρ : Type} (fields : Fields ρ) {depth : Nat} {name : String},
    (fields.check depth name).isSome ↔ name ∈ fields.names
  | _, .nil, depth, name => by simp [check, names]
  | _, .cons n absent omitted s rest, depth, name => by
    simp only [check, names, List.mem_cons]
    by_cases h : n = name
    · simp [h]
    · simp [h, Ne.symm h, isSome_check rest]

/-- A field is read from the member that has its name. -/
theorem Fields.readMembers_cons {n : String} {absent : Absent α} {omitted : α → Bool} {s : Shape α}
    {rest : Fields ρ} {depth : Nat} {ms : List (String × Outline)} {row : α × ρ} :
    (Fields.cons n absent omitted s rest).readMembers depth ms = .ok row ↔
      (match ms.lookup n with
        | some o => s.readOutline depth o
        | none => absent.inObject n) = .ok row.1 ∧ rest.readMembers depth ms = .ok row.2 := by
  obtain ⟨a, row⟩ := row
  simp only [Fields.readMembers]
  cases ms.lookup n <;> simp [bind_eq_ok, pure, Except.pure]

theorem Fields.checks : ∀ {ρ : Type} (fields : Fields ρ) {depth : Nat} {ms : List (String × Outline)}
    {row : ρ} {name : String} {o : Outline} {read : Outline → Except ReadError Unit},
    fields.readMembers depth ms = .ok row → fields.check depth name = some read →
    ms.lookup name = some o → read o = .ok ()
  | _, .nil, _, _, _, _, _, _, _, hread, _ => by simp [check] at hread
  | _, .cons n absent omitted s rest, depth, ms, row, name, o, read, hrow, hread, ho => by
    obtain ⟨ha, hrest⟩ := readMembers_cons.mp hrow
    simp only [check] at hread
    split_ifs at hread with hn
    · subst hn
      obtain rfl := Option.some.inj hread
      rw [ho] at ha
      exact map_eq_ok.mpr ⟨row.1, ha, rfl⟩
    · exact checks rest hrest hread ho

/-- An array may leave out the same fields as an object. -/
def Fields.Even : {ρ : Type} → Fields ρ → Prop
  | _, .nil => True
  | _, .cons _ absent _ _ rest => (∀ a, absent ≠ .implied a) ∧ rest.Even

theorem Fields.readMembers_congr : ∀ {ρ : Type} (fields : Fields ρ) {depth : Nat}
    {ms ms' : List (String × Outline)}, (∀ n ∈ fields.names, ms.lookup n = ms'.lookup n) →
    fields.readMembers depth ms = fields.readMembers depth ms'
  | _, .nil, _, _, _, _ => rfl
  | _, .cons n absent omitted s rest, depth, ms, ms', h => by
    have hn := h n List.mem_cons_self
    have hrest : rest.readMembers depth ms = rest.readMembers depth ms' :=
      readMembers_congr rest fun m hm => h m (List.mem_cons_of_mem _ hm)
    simp only [readMembers, hn, hrest]

/-- From an array the fields are read as from an object that has its items as members in order. -/
theorem Fields.readRow_closed : ∀ {ρ : Type} (fields : Fields ρ) {depth position : Nat}
    {wanted : String} {items left : List Outline} {row : ρ}, fields.names.Nodup → fields.Even →
    (fields.readRow depth wanted position items .closed = .ok (row, left) ↔
      fields.readMembers depth (fields.names.zip items) = .ok row ∧ left = items.drop fields.size)
  | _, .nil, depth, position, wanted, items, left, row, _, _ => by
    simp [readRow, readMembers, size, eq_comm]
  | _, .cons n absent omitted s rest, depth, position, wanted, items, left, (a, row), hnodup, heven => by
    obtain ⟨hn, hnodup⟩ := List.nodup_cons.mp hnodup
    obtain ⟨himplied, heven⟩ := heven
    have hrest : rest.readRow depth wanted (position + 1) items.tail .closed = .ok (row, left) ↔
        rest.readMembers depth (rest.names.zip items.tail) = .ok row ∧ left = items.tail.drop rest.size :=
      readRow_closed rest hnodup heven
    cases items with
    | nil =>
      have hread : (Fields.cons n absent omitted s rest).readRow depth wanted position [] .closed =
          .ok ((a, row), left) ↔ absent.inArray wanted position = .ok a ∧
            rest.readRow depth wanted (position + 1) [] .closed = .ok (row, left) := by
        simp [readRow, bind_eq_ok, Ending.ofArray, pure, Except.pure, and_assoc, Except.bind]
      have habsent : absent.inArray wanted position = .ok a ↔ absent.inObject n = .ok a := by
        cases absent with
        | default b => exact Iff.rfl
        | implied b => exact (himplied b rfl).elim
        | required => simp [Absent.inArray, Absent.inObject]
      rw [List.tail_nil] at hrest
      rw [hread, hrest, readMembers_cons]
      simp [habsent, names, size, and_assoc]
    | cons o items =>
      have hread : (Fields.cons n absent omitted s rest).readRow depth wanted position (o :: items) .closed =
          .ok ((a, row), left) ↔ s.readOutline depth o = .ok a ∧
            rest.readRow depth wanted (position + 1) items .closed = .ok (row, left) := by
        simp [readRow, bind_eq_ok, pure, Except.pure, and_assoc]
      have hzip : rest.readMembers depth ((n, o) :: rest.names.zip items) =
          rest.readMembers depth (rest.names.zip items) := by
        refine rest.readMembers_congr fun m hm => ?_
        have hne : m ≠ n := fun heq => hn (heq ▸ hm)
        rw [List.lookup_cons, beq_eq_false_iff_ne.mpr hne]
      rw [List.tail_cons] at hrest
      rw [hread, hrest, readMembers_cons]
      simp [names, size, hzip, and_assoc]

theorem membersFor_object {names : List String} {members : List (StringBody × Outline)}
    {wrongName : Option Outline} {e : Ending} {own : List (String × Outline)} :
    membersFor names (.object members wrongName e) = some own ↔
      (wrongName = none ∧ e = .closed) ∧ ∃ ms, named members = some ms ∧
        (own.map Prod.fst).Nodup ∧ (∀ m ∈ ms, m.1 ∈ names ∨ m.2.skip = .ok ()) ∧
        own = ms.filter fun m => m.1 ∈ names := by
  cases wrongName with
  | some o => simp [membersFor]
  | none =>
    cases e with
    | closed =>
      simp only [membersFor, Option.bind_eq_bind, Option.bind_eq_some_iff, isOk_iff,
        Option.ite_none_right_eq_some, Option.some.injEq, true_and]
      refine exists_congr fun ms => and_congr_right fun _ => ?_
      constructor
      · rintro ⟨⟨hnodup, hall⟩, rfl⟩
        exact ⟨hnodup, hall, rfl⟩
      · rintro ⟨hnodup, hall, rfl⟩
        exact ⟨⟨hnodup, hall⟩, rfl⟩
    | _ => simp [membersFor]

theorem membersFor_array {names : List String} {items : List Outline} {e : Ending}
    {own : List (String × Outline)} : membersFor names (.array items e) = some own ↔
      e = .closed ∧ items.length ≤ names.length ∧ names.zip items = own := by
  cases e <;> simp [membersFor]

theorem Fields.length_names : ∀ {ρ : Type} (fields : Fields ρ), fields.names.length = fields.size
  | _, .nil => rfl
  | _, .cons _ _ _ _ rest => congrArg (· + 1) (length_names rest)

theorem endObject_eq_ok {wrongName : Option Outline} {e : Ending} :
    endObject wrongName e = .ok () ↔ wrongName = none ∧ e = .closed := by
  cases wrongName <;> cases e <;> simp [endObject, Ending.ofObject]

/-- The members that a record picks while it reads are its members, if their values can be read. -/
theorem Fields.readKnown_iff {fields : Fields ρ} {depth : Nat} {members : List (StringBody × Outline)}
    {wrongName : Option Outline} {e : Ending} {row : ρ} :
    (∃ own, readKnown (fun n => fields.check depth n) members [] = .ok own ∧
      endObject wrongName e = .ok () ∧ fields.readMembers depth own = .ok row) ↔
    ∃ own, membersFor fields.names (.object members wrongName e) = some own ∧
      fields.readMembers depth own = .ok row := by
  have hknown (ms : List (String × Outline)) :
      (ms.filter fun m => (fields.check depth m.1).isSome) = ms.filter fun m => m.1 ∈ fields.names :=
    List.filter_congr fun m _ => Bool.eq_iff_iff.mpr (by simp [fields.isSome_check])
  have hnil : (([] : List (String × Outline)).map Prod.fst).Nodup := List.nodup_nil
  refine exists_congr fun own => ?_
  rw [readKnown_eq_ok hnil, membersFor_object, endObject_eq_ok]
  simp only [List.reverse_nil, List.nil_append, hknown]
  constructor
  · rintro ⟨⟨ms, hms, hall, hnodup, hown⟩, hend, hrow⟩
    refine ⟨⟨hend, ms, hms, hnodup, fun m hm => ?_, hown⟩, hrow⟩
    by_cases hc : m.1 ∈ fields.names
    · exact .inl hc
    · have hnone : fields.check depth m.1 = none :=
        Option.not_isSome_iff_eq_none.mp (mt fields.isSome_check.mp hc)
      have hpass := hall m hm
      simp only [Passes, hnone] at hpass
      exact .inr hpass
  · rintro ⟨⟨hend, ms, hms, hnodup, hall, hown⟩, hrow⟩
    refine ⟨⟨ms, hms, fun m hm => ?_, hnodup, hown⟩, hend, hrow⟩
    cases hc : fields.check depth m.1 with
    | none =>
      have hnone : ¬ (fields.check depth m.1).isSome := by simp [hc]
      have hnot : m.1 ∉ fields.names := mt fields.isSome_check.mpr hnone
      simp only [Passes, hc]
      exact (hall m hm).resolve_left hnot
    | some read =>
      have hmem : (m.1, m.2) ∈ own := by
        rw [hown]
        exact List.mem_filter.mpr ⟨hm, by simpa using fields.isSome_check.mp (by rw [hc]; rfl)⟩
      simp only [Passes, hc]
      exact fields.checks hrow hc (lookup_of_mem hnodup hmem)

section
variable {name : String} {fields : Fields ρ} {make : ρ → α} {parts : α → ρ} {depth inner : Nat} {a : α}

theorem readOutline_object_eq_ok (hd : enter depth = .ok inner) {members : List (StringBody × Outline)}
    {wrongName : Option Outline} {e : Ending} :
    (Shape.record name fields make parts).readOutline depth (.object members wrongName e) = .ok a ↔
      ∃ row, (∃ own, readKnown (fun n => fields.check inner n) members [] = .ok own ∧
        endObject wrongName e = .ok () ∧ fields.readMembers inner own = .ok row) ∧ make row = a := by
  simp only [Shape.readOutline, hd, bind_eq_ok, pure, Except.pure, Except.ok.injEq]
  constructor
  · rintro ⟨_, rfl, own, hown, _, hend, row, hrow, ha⟩
    exact ⟨row, ⟨own, hown, hend, hrow⟩, ha⟩
  · rintro ⟨row, ⟨own, hown, hend, hrow⟩, ha⟩
    exact ⟨inner, rfl, own, hown, (), hend, row, hrow, ha⟩

theorem readOutline_array_eq_ok (hd : enter depth = .ok inner) {items : List Outline} {e : Ending} :
    (Shape.record name fields make parts).readOutline depth (.array items e) = .ok a ↔
      ∃ row, fields.readRow inner (recordSize name fields.size) 0 items e = .ok (row, []) ∧
        e = .closed ∧ make row = a := by
  simp only [Shape.readOutline, hd, bind_eq_ok, pure, Except.pure, Except.ok.injEq]
  constructor
  · rintro ⟨_, rfl, ⟨row, left⟩, hrow, hfull⟩
    cases left with
    | cons o left => simp [bind, Except.bind] at hfull
    | nil =>
      cases e <;> simp [Ending.ofFullArray, bind, Except.bind] at hfull
      exact ⟨row, hrow, rfl, hfull⟩
  · rintro ⟨row, hrow, rfl, ha⟩
    exact ⟨inner, rfl, (row, []), hrow, by simp [Ending.ofFullArray, bind, Except.bind, ha]⟩

/-- Which texts a record is read from, and what is read from them. -/
theorem readOutline_record_eq_ok (hnodup : fields.names.Nodup) (heven : fields.Even)
    (hd : enter depth = .ok inner) {o : Outline} :
    (Shape.record name fields make parts).readOutline depth o = .ok a ↔
      ∃ own row, membersFor fields.names o = some own ∧ fields.readMembers inner own = .ok row ∧
        make row = a := by
  cases o with
  | object members wrongName e =>
    rw [readOutline_object_eq_ok hd]
    simp only [Fields.readKnown_iff]
    constructor
    · rintro ⟨row, ⟨own, hown, hrow⟩, ha⟩
      exact ⟨own, row, hown, hrow, ha⟩
    · rintro ⟨own, row, hown, hrow, ha⟩
      exact ⟨row, ⟨own, hown, hrow⟩, ha⟩
  | array items e =>
    rw [readOutline_array_eq_ok hd]
    simp only [membersFor_array, fields.length_names]
    constructor
    · rintro ⟨row, hrow, rfl, ha⟩
      obtain ⟨hrow, hleft⟩ := (fields.readRow_closed hnodup heven).mp hrow
      exact ⟨_, row, ⟨rfl, List.drop_eq_nil_iff.mp hleft.symm, rfl⟩, hrow, ha⟩
    · rintro ⟨_, row, ⟨rfl, hlength, rfl⟩, hrow, ha⟩
      exact ⟨row, (fields.readRow_closed hnodup heven).mpr ⟨hrow, (List.drop_eq_nil_iff.mpr hlength).symm⟩,
        rfl, ha⟩
  | _ => simp [Shape.readOutline, membersFor, Outline.wrongType_ne_ok]

end

/-! ## Readers without errors -/

theorem toOption_readOutline_record {name : String} {fields : Fields ρ} {make : ρ → α} {parts : α → ρ}
    (hnodup : fields.names.Nodup) (heven : fields.Even) {depth inner : Nat}
    (hd : enter depth = .ok inner) (o : Outline) :
    ((Shape.record name fields make parts).readOutline depth o).toOption =
      (membersFor fields.names o).bind fun own => (fields.readMembers inner own).toOption.map make := by
  ext a
  simp only [toOption_eq_some, readOutline_record_eq_ok hnodup heven hd, Option.bind_eq_some_iff,
    Option.map_eq_some_iff]
  exact exists_congr fun own => exists_and_left

theorem Fields.toOption_readMembers_cons {n : String} {absent : Absent α} {omitted : α → Bool}
    {s : Shape α} {rest : Fields ρ} {depth : Nat} {ms : List (String × Outline)} :
    ((Fields.cons n absent omitted s rest).readMembers depth ms).toOption =
      (match ms.lookup n with
        | some o => s.readOutline depth o
        | none => absent.inObject n).toOption.bind fun a =>
          (rest.readMembers depth ms).toOption.map fun row => (a, row) := by
  ext row
  simp only [toOption_eq_some, readMembers_cons, Option.bind_eq_some_iff, Option.map_eq_some_iff]
  constructor
  · rintro ⟨ha, hrow⟩
    exact ⟨row.1, ha, row.2, hrow, rfl⟩
  · rintro ⟨a, ha, row, hrow, rfl⟩
    exact ⟨ha, hrow⟩

/-- A field that may be missing from an object or null there. -/
theorem Fields.toOption_readMembers_optional {n : String} {omitted : Option α → Bool} {s : Shape α}
    {rest : Fields ρ} {depth : Nat} {ms : List (String × Outline)} :
    ((Fields.cons n (.default none) omitted (.optional s) rest).readMembers depth ms).toOption =
      (optionalIn ms n fun o => (s.readOutline depth o).toOption).bind fun a =>
        (rest.readMembers depth ms).toOption.map fun row => (a, row) := by
  have hfield : optionalIn ms n (fun o => (s.readOutline depth o).toOption) =
      (match ms.lookup n with
        | some o => (Shape.optional s).readOutline depth o
        | none => Absent.inObject n (.default none)).toOption := by
    cases hn : ms.lookup n with
    | none => simp [optionalIn, hn, Absent.inObject, Except.toOption]
    | some o =>
      cases o with
      | null => simp [optionalIn, hn, Shape.readOutline, Except.toOption]
      | _ => simp only [optionalIn, hn, Shape.readOutline, toOption_map]
  rw [hfield]
  exact toOption_readMembers_cons

theorem Fields.toOption_readMembers_required {n : String} {omitted : α → Bool} {s : Shape α}
    {rest : Fields ρ} {depth : Nat} {ms : List (String × Outline)} :
    ((Fields.cons n .required omitted s rest).readMembers depth ms).toOption =
      (neededIn ms n fun o => (s.readOutline depth o).toOption).bind fun a =>
        (rest.readMembers depth ms).toOption.map fun row => (a, row) := by
  have hfield : neededIn ms n (fun o => (s.readOutline depth o).toOption) =
      (match ms.lookup n with
        | some o => s.readOutline depth o
        | none => Absent.inObject n .required).toOption := by
    cases hn : ms.lookup n <;> simp [neededIn, hn, Absent.inObject, Except.toOption]
  rw [hfield]
  exact toOption_readMembers_cons

theorem toOption_wrongType (o : Outline) (wanted : String) :
    (o.wrongType wanted : Except ReadError α).toOption = none := by
  cases h : (o.wrongType wanted : Except ReadError α) with
  | error _ => rfl
  | ok a => exact (Outline.wrongType_ne_ok h).elim

theorem toOption_readOutline_text (depth : Nat) (o : Outline) :
    (Shape.text.readOutline depth o).toOption = o.text? := by
  cases o <;> simp only [Shape.readOutline, Outline.text?, toOption_mishap, toOption_wrongType]

theorem toOption_readOutline_integer (depth : Nat) (o : Outline) :
    (Shape.integer.readOutline depth o).toOption = o.whole? := by
  cases o with
  | number n =>
    cases hn : n.value with
    | error m => simp [Shape.readOutline, Outline.whole?, hn, mishap, Except.bind, Except.toOption]
    | ok x =>
      cases x with
      | whole z =>
        simp [Shape.readOutline, Outline.whole?, hn, mishap, Except.bind, readInteger, Except.toOption]
        split_ifs <;> rfl
      | double x =>
        simp [Shape.readOutline, Outline.whole?, hn, mishap, Except.bind, readInteger, Except.toOption]
  | _ => simp only [Shape.readOutline, Outline.whole?, toOption_wrongType]

theorem optionalIn_map (ms : List (String × Outline)) (name : String) (read : Outline → Option α)
    (f : α → β) :
    (optionalIn ms name fun o => (read o).map f) = (optionalIn ms name read).map (Option.map f) := by
  cases hn : ms.lookup name with
  | none => simp [optionalIn, hn]
  | some o => cases o <;> simp [optionalIn, hn, Function.comp_def]

end Supervisor.Json
