import Supervisor.Holotree
import Supervisor.Proofs.Json.Records
/-!
# Listings of environments

A listing is the text of an object that has an entry for each environment, and an entry may name the
space of its environment. `listing` reads the entries one by one, in the order of the text, and says
what is wrong first if the text is no listing. An environment that is listed twice counts as it is
listed last.
-/
namespace Supervisor.Holotree

open Json (Document Outline ReadError StringBody endObject mishap)

/-! ## Entries -/

/-- A space is a string, or null if there is none. -/
def readSpace : Outline → Except ReadError (Option String)
  | .null => .ok none
  | .string b => (mishap b.text).map some
  | o => o.wrongType "a string"

/-- Goes through the members of an entry. The member `space` is read, which may be there once, and all
others are passed over. -/
def findSpace (seen : Option (Option String)) :
    List (StringBody × Outline) → Except ReadError (Option (Option String))
  | [] => .ok seen
  | (b, o) :: rest => do
    let name ← mishap b.text
    if name = "space" then
      if seen.isSome then .error (.duplicateField "space")
      else
        let space ← readSpace o
        findSpace (some space) rest
    else
      mishap o.skip
      findSpace seen rest

/-- The space of an entry. An entry is an object, or a list of at most one item, which is the space. -/
def spaceOf : Outline → Except ReadError (Option String)
  | .object members wrongName e => do
    let seen ← findSpace none members
    endObject wrongName e
    return seen.join
  | .array [] e => do
    e.ofArray
    return none
  | .array [o] e => do
    let space ← readSpace o
    e.ofFullArray
    return space
  | .array (o :: _ :: _) _ => do
    let _ ← readSpace o
    .error (.mishap .trailingCharacters)
  | o => o.wrongType "struct HolotreeEntry"

/-- The environments with their spaces, in the order of the text. -/
def readSpaces : List (StringBody × Outline) → Except ReadError (List (String × Option String))
  | [] => .ok []
  | (b, o) :: rest => do
    let id ← mishap b.text
    let space ← spaceOf o
    let others ← readSpaces rest
    return (id, space) :: others

/-- What some output lists, or what is wrong with it. -/
def listing (output : String) : Except ReadError (List (String × Option String)) :=
  let d := Document.ofGlyphs ((Text.trim output.toList).map some)
  d.finish (match d.value with
    | .object members wrongName e => do
      let entries ← readSpaces members
      endObject wrongName e
      return entries
    | o => o.wrongType "a map")

/-- The environment is listed, and the space it is listed with last begins like this. -/
def Under (lead : String) (entries : List (String × Option String)) (id : String) : Prop :=
  ∃ before space after, entries = before ++ (id, some space) :: after ∧ id ∉ after.map Prod.fst ∧
    lead.toList <+: space.toList

/-! ## Reading an entry -/

/-- The members of an entry that were picked so far, and the space that was seen among them. -/
def Seen (known : List (String × Outline)) (seen : Option (Option String)) : Prop :=
  known = [] ∧ seen = none ∨
    ∃ o space, known = [("space", o)] ∧ readSpace o = .ok space ∧ seen = some space

theorem map_wrongType {α β : Type} (o : Outline) (wanted : String) (f : α → β) :
    (o.wrongType wanted).map f = o.wrongType wanted := by
  unfold Outline.wrongType
  cases o.found <;> rfl

theorem readOutline_space (depth : Nat) (o : Outline) :
    (Json.Shape.optional .text).readOutline depth o = readSpace o := by
  cases o with
  | null | string b => rfl
  | _ => simp only [Json.Shape.readOutline, readSpace, map_wrongType]

/-- An entry knows the member `space` and no other. -/
theorem check_entry (depth : Nat) (name : String) :
    Entry.fields.check depth name =
      if "space" = name then some fun o => (readSpace o).map fun _ => () else none := by
  simp only [Entry.fields, Json.Fields.check, readOutline_space]

/-- Members are picked as the space is found, and both go wrong at the same member. -/
theorem readKnown_space {known : List (String × Outline)} {seen : Option (Option String)}
    (h : Seen known seen) (members : List (StringBody × Outline)) :
    (∃ e, Json.readKnown (fun n => Entry.fields.check 126 n) members known = .error e ∧
      findSpace seen members = .error e) ∨
    ∃ known' seen', Json.readKnown (fun n => Entry.fields.check 126 n) members known = .ok known' ∧
      findSpace seen members = .ok seen' ∧ Seen known' seen' := by
  induction members generalizing known seen with
  | nil =>
    refine .inr ⟨known.reverse, seen, rfl, rfl, ?_⟩
    obtain ⟨rfl, rfl⟩ | ⟨o, space, rfl, hspace, rfl⟩ := h
    · exact .inl ⟨rfl, rfl⟩
    · exact .inr ⟨o, space, rfl, hspace, rfl⟩
  | cons m rest ih =>
    obtain ⟨b, o⟩ := m
    simp only [Json.readKnown, findSpace, check_entry]
    cases hname : b.text with
    | error e => exact .inl ⟨.mishap e, rfl, rfl⟩
    | ok name =>
      by_cases hn : name = "space"
      · subst hn
        obtain ⟨rfl, rfl⟩ | ⟨o', space, rfl, hspace, rfl⟩ := h
        · cases hspace : readSpace o with
          | error e => exact .inl ⟨e, by simp [hspace, mishap, bind, Except.bind, Except.map],
              by simp [mishap, bind, Except.bind]⟩
          | ok space =>
            have hseen : Seen [("space", o)] (some space) := .inr ⟨o, space, rfl, hspace, rfl⟩
            simpa [hspace, mishap, bind, Except.bind, Except.map, check_entry] using ih hseen
        · exact .inl ⟨.duplicateField "space", rfl, rfl⟩
      · have hn' : "space" ≠ name := Ne.symm hn
        cases hskip : o.skip with
        | error e => exact .inl ⟨.mishap e, by simp [hn', mishap, bind, Except.bind],
            by simp [hn, mishap, bind, Except.bind]⟩
        | ok u => simpa [hn, hn', hskip, mishap, bind, Except.bind, check_entry] using ih h

theorem readMembers_space {known : List (String × Outline)} {seen : Option (Option String)}
    (h : Seen known seen) : Entry.fields.readMembers 126 known = .ok (seen.join, ()) := by
  obtain ⟨rfl, rfl⟩ | ⟨o, space, rfl, hspace, rfl⟩ := h
  · rfl
  · simp [Entry.fields, Json.Fields.readMembers, readOutline_space, hspace, bind, Except.bind, pure,
      Except.pure]

theorem readRow_space (depth : Nat) (wanted : String) (o : Outline) (items : List Outline)
    (e : Json.Ending) : Entry.fields.readRow depth wanted 0 (o :: items) e =
      (readSpace o).map fun space => ((space, ()), items) := by
  simp only [Entry.fields, Json.Fields.readRow, readOutline_space]
  cases readSpace o <;> rfl

/-- An entry is read for its space. -/
theorem readOutline_entry (o : Outline) :
    Entry.shape.readOutline 127 o = (spaceOf o).map Entry.mk := by
  cases o with
  | object members wrongName e =>
    have henter : Json.enter 127 = .ok 126 := rfl
    simp only [Entry.shape, Json.Shape.readOutline, spaceOf, henter]
    obtain ⟨err, hread, hfind⟩ | ⟨known, seen, hread, hfind, hseen⟩ :=
      readKnown_space (.inl ⟨rfl, rfl⟩) members
    · simp [hread, hfind, bind, Except.bind, Except.map]
    · simp only [hread, hfind, readMembers_space hseen, bind, Except.bind]
      cases endObject wrongName e <;> rfl
  | array items e =>
    simp only [Entry.shape, Json.Shape.readOutline]
    match items with
    | [] => cases e <;> rfl
    | [o] =>
      simp only [readRow_space, spaceOf]
      cases readSpace o with
      | error err => rfl
      | ok space => cases e <;> rfl
    | o :: _ :: _ =>
      simp only [readRow_space, spaceOf]
      cases readSpace o <;> rfl
  | _ =>
    simp only [Entry.shape, Json.Shape.readOutline, spaceOf, map_wrongType]
    rfl

/-! ## Reading a listing -/

/-- Environments are listed one by one, and the later ones win. -/
theorem readEntries_entry (members : List (StringBody × Outline)) (t : Table Entry) :
    Json.readEntries (Entry.shape.readOutline 127) members t =
      (readSpaces members).map fun entries =>
        t.override (entries.map fun (id, space) => (id, ⟨space⟩)) := by
  induction members generalizing t with
  | nil => rfl
  | cons m rest ih =>
    obtain ⟨b, o⟩ := m
    simp only [Json.readEntries, readSpaces, readOutline_entry]
    cases hid : b.text with
    | error e => rfl
    | ok id =>
      cases hspace : spaceOf o with
      | error e => rfl
      | ok space =>
        have hrest := ih (t.insert id ⟨space⟩)
        simp only [bind, Except.bind, mishap, Except.map, hrest]
        cases readSpaces rest <;> rfl

/-- The table of a listing. -/
def tabled (entries : List (String × Option String)) : Table Entry :=
  Table.ofList (entries.map fun (id, space) => (id, ⟨space⟩))

/-- The environments of a listing whose space begins like this, in ascending order. -/
def idsUnder (lead : String) (entries : List (String × Option String)) : List String :=
  Table.names ((tabled entries).filter fun (_, e) => e.isIn lead)

theorem ofString_listing (output : String) :
    (Json.Shape.table Entry.shape).ofString (trimmed output) = (listing output).map tabled := by
  simp only [Json.Shape.ofString, listing, trimmed, Document.ofString, Text.glyphsOf, String.toList_ofList]
  generalize Document.ofGlyphs ((Text.trim output.toList).map some) = d
  obtain ⟨value, trailing⟩ := d
  cases value with
  | object members wrongName e =>
    have henter : Json.enter Json.depthLimit = .ok 127 := rfl
    simp only [Json.Shape.readOutline, henter, bind, Except.bind, readEntries_entry]
    cases readSpaces members with
    | error err => rfl
    | ok entries => cases endObject wrongName e <;> cases trailing <;> rfl
  | _ =>
    simp only [Json.Shape.readOutline, Outline.wrongType]
    cases Outline.found _ <;> rfl

/-- The last entry under a name is the one that counts. -/
theorem find?_reverse_eq_some {entries : List (String × Option String)} {id : String}
    {space : Option String} : Table.find? entries.reverse id = some space ↔
      ∃ before after, entries = before ++ (id, space) :: after ∧ id ∉ after.map Prod.fst := by
  rw [Table.find?, List.lookup_eq_some_iff]
  constructor
  · rintro ⟨after, before, h, hnot⟩
    refine ⟨before.reverse, after.reverse, by simpa using congrArg List.reverse h, fun hmem => ?_⟩
    obtain ⟨m, hm, rfl⟩ := List.mem_map.mp hmem
    simpa using hnot m (List.mem_reverse.mp hm)
  · rintro ⟨before, after, rfl, hnot⟩
    refine ⟨after.reverse, before.reverse, by simp, fun m hm => bne_iff_ne.mpr fun heq => hnot ?_⟩
    exact List.mem_map.mpr ⟨m, List.mem_reverse.mp hm, heq.symm⟩

theorem isIn_iff {lead : String} {e : Entry} :
    e.isIn lead = true ↔ ∃ space, e.space = some space ∧ lead.toList <+: space.toList := by
  obtain ⟨space⟩ := e
  cases space <;> simp [Entry.isIn]

theorem find?_tabled (entries : List (String × Option String)) (id : String) :
    (tabled entries).find? id = (Table.find? entries.reverse id).map Entry.mk := by
  rw [tabled, Table.find?_ofList, ← List.map_reverse]
  induction entries.reverse with
  | nil => rfl
  | cons e rest ih =>
    obtain ⟨n, space⟩ := e
    simp only [List.map_cons, Table.find?_cons, ih]
    split_ifs <;> rfl

theorem ordered_tabled (entries : List (String × Option String)) : (tabled entries).Ordered :=
  Table.ordered_ofList _

theorem pairwise_idsUnder (lead : String) (entries : List (String × Option String)) :
    (idsUnder lead entries).Pairwise (· < ·) := by
  have hordered : Table.Ordered ((tabled entries).filter fun (_, e) => e.isIn lead) :=
    (ordered_tabled entries).filter _
  exact hordered.names

theorem mem_idsUnder_iff {lead : String} {entries : List (String × Option String)} {id : String} :
    id ∈ idsUnder lead entries ↔ Under lead entries id := by
  rw [idsUnder, Table.mem_names]
  constructor
  · rintro ⟨e, he⟩
    obtain ⟨hm, hin⟩ := List.mem_filter.mp he
    rw [(ordered_tabled entries).mem_iff, find?_tabled, Option.map_eq_some_iff] at hm
    obtain ⟨_, hm, rfl⟩ := hm
    obtain ⟨space, rfl, hlead⟩ := isIn_iff.mp hin
    obtain ⟨before, after, hentries, hnot⟩ := find?_reverse_eq_some.mp hm
    exact ⟨before, space, after, hentries, hnot, hlead⟩
  · rintro ⟨before, space, after, hentries, hnot, hlead⟩
    have hm := find?_reverse_eq_some.mpr ⟨before, after, hentries, hnot⟩
    refine ⟨⟨some space⟩, List.mem_filter.mpr ⟨?_, isIn_iff.mpr ⟨space, rfl, hlead⟩⟩⟩
    rw [(ordered_tabled entries).mem_iff, find?_tabled, hm]
    rfl

theorem readListing_of_listing {output : String} {entries : List (String × Option String)}
    (h : listing output = .ok entries) (lead : String) :
    readListing lead output = .ok (idsUnder lead entries) := by
  unfold readListing
  rw [ofString_listing, h]
  rfl

theorem readListing_of_no_listing {output : String} {e : ReadError} (h : listing output = .error e)
    (lead : String) : readListing lead output =
      .error (.externalTool "rcc" (some 0) ("unexpected holotree list output: " ++ e.message)) := by
  unfold readListing
  rw [ofString_listing, h]
  rfl

/-- What is read from some output: the environments under the prefix, each once and in order, or what
is wrong with it. -/
theorem readListing_cases (lead output : String) :
    (∃ e, listing output = .error e ∧ readListing lead output =
      .error (.externalTool "rcc" (some 0) ("unexpected holotree list output: " ++ e.message))) ∨
    ∃ entries ids, listing output = .ok entries ∧ readListing lead output = .ok ids ∧
      ids.Pairwise (· < ·) ∧ ∀ id, id ∈ ids ↔ Under lead entries id := by
  cases h : listing output with
  | error e => exact .inl ⟨e, rfl, readListing_of_no_listing h lead⟩
  | ok entries =>
    exact .inr ⟨entries, _, rfl, readListing_of_listing h lead, pairwise_idsUnder lead entries,
      fun id => mem_idsUnder_iff⟩

end Supervisor.Holotree
