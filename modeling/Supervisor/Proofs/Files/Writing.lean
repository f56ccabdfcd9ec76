import Supervisor.Files.Tree
import Supervisor.Proofs.Json.Place
/-!
# Writing files

What is put at a place of a tree is found there, and every way that could be followed before can still
be followed. So a file that was written is read as it was written, and writing it again changes
nothing.
-/
namespace Supervisor

theorem Table.insert_insert {α : Type} (t : Table α) (name : String) (a b : α) :
    (t.insert name a).insert name b = t.insert name b := by
  induction t with
  | nil => simp [Table.insert]
  | cons e rest ih =>
    obtain ⟨n, v⟩ := e
    by_cases heq : name = n
    · simp [Table.insert, heq]
    · by_cases hlt : name < n
      · simp [Table.insert, heq, hlt]
      · simp [Table.insert, heq, hlt, ih]

/-! ## Trees -/

namespace Node

variable {n v new : Node} {here place : Place} {name : String}

/-- There is no directory at the place. -/
def Vacant (n : Node) (place : Place) : Prop := ∀ v, n.at? place = some v → v.isDirectory = false

theorem isDirectory_iff : n.isDirectory = true ↔ ∃ es, n = .directory es := by
  cases n <;> simp [isDirectory]

@[simp] theorem at?_nil (n : Node) : n.at? [] = some n := by
  cases n <;> rfl

theorem at?_cons (n : Node) (name : String) (rest : Place) :
    n.at? (name :: rest) = (Table.find? n.entries name).bind (·.at? rest) := by
  cases n <;> rfl

/-- Nothing is below a node that is no directory. -/
theorem eq_nil_of_at? (hn : n.isDirectory = false) (h : n.at? here = some v) : here = [] ∧ n = v := by
  cases here with
  | nil => exact ⟨rfl, by simpa using h⟩
  | cons name rest => cases n <;> simp [at?_cons, entries, isDirectory] at h hn

/-- Above every node there are directories. -/
theorem isDirectory_at?_dropLast (h : n.at? here = some v) (hne : here ≠ []) :
    ∃ u, n.at? here.dropLast = some u ∧ u.isDirectory = true := by
  induction here generalizing n with
  | nil => exact (hne rfl).elim
  | cons name rest ih =>
    rw [at?_cons] at h
    obtain ⟨child, hchild, h⟩ := Option.bind_eq_some_iff.mp h
    cases rest with
    | nil =>
      refine ⟨n, by simp, ?_⟩
      cases n with
      | file text executable => simp [entries] at hchild
      | directory es => rfl
    | cons m rest =>
      obtain ⟨u, hu, hdir⟩ := ih h (by simp)
      exact ⟨u, by rw [List.dropLast_cons_cons, at?_cons, hchild]; exact hu, hdir⟩

theorem put_file (text : String) (executable : Bool) (name : String) (rest : Place) :
    (file text executable).put (some new) (name :: rest) = file text executable := by
  cases rest <;> rfl

/-- Putting something below or in place of an entry. -/
theorem put_of_entry {es : Table Node} {child : Node} (h : es.find? name = some child)
    (rest : Place) : (directory es).put (some new) (name :: rest) =
      .directory (Table.insert name (child.put (some new) rest) es) := by
  cases rest with
  | nil => simp [put]
  | cons r rest => simp only [put, h]

theorem at?_entry {es : Table Node} {child : Node} (h : es.find? name = some child) (rest : Place) :
    (directory es).at? (name :: rest) = child.at? rest := by
  rw [at?_cons, entries, h, Option.bind_some]

theorem at?_insert (es : Table Node) (name m : String) (child : Node) (rest : Place) :
    (directory (Table.insert name child es)).at? (m :: rest) =
      if m = name then child.at? rest else (directory es).at? (m :: rest) := by
  rw [at?_cons, at?_cons, entries, entries, Table.find?_insert]
  split_ifs <;> rfl

/-- What was there before is there still, and a directory is still a directory. -/
theorem at?_put (new : Node) (hv : n.Vacant place) (h : n.at? here = some v) :
    ∃ u, (n.put (some new) place).at? here = some u ∧
      (v.isDirectory = true → u.isDirectory = true) := by
  induction place generalizing n here with
  | nil =>
    have hfile := hv n (at?_nil n)
    obtain ⟨rfl, rfl⟩ := eq_nil_of_at? hfile h
    refine ⟨new, by simp [put], fun hdir => ?_⟩
    rw [hfile] at hdir
    cases hdir
  | cons name rest ih =>
    cases n with
    | file text executable => exact ⟨v, by rwa [put_file], id⟩
    | directory es =>
      cases hes : Table.find? es name with
      | none =>
        -- A new entry, or none: what is followed has another name.
        have hother : ∀ m below, here = m :: below → m ≠ name := by
          rintro m below rfl rfl
          simp [at?_cons, entries, hes] at h
        cases rest with
        | nil =>
          cases here with
          | nil => exact ⟨_, at?_nil _, fun _ => rfl⟩
          | cons m below =>
            refine ⟨v, ?_, id⟩
            rw [put, at?_insert, if_neg (hother m below rfl)]
            exact h
        | cons r rest => exact ⟨v, by simpa only [put, hes] using h, id⟩
      | some child =>
        rw [put_of_entry hes]
        cases here with
        | nil => exact ⟨_, at?_nil _, fun _ => rfl⟩
        | cons m below =>
          rw [at?_insert]
          split_ifs with hm
          · subst hm
            rw [at?_entry hes] at h
            exact ih (fun w hw => hv w (by rwa [at?_entry hes])) h
          · exact ⟨v, h, id⟩

/-- Right below a directory, what is put at a place is found there. -/
theorem at?_put_self (h : ∃ u, n.at? place.dropLast = some u ∧ u.isDirectory = true) :
    (n.put (some new) place).at? place = some new := by
  obtain ⟨u, hu, hdir⟩ := h
  induction place generalizing n with
  | nil => simp [put]
  | cons name rest ih =>
    cases rest with
    | nil =>
      obtain ⟨es, rfl⟩ := isDirectory_iff.mp hdir
      obtain rfl : n = .directory es := by simpa using hu
      rw [put, at?_insert, if_pos rfl, at?_nil]
    | cons r rest =>
      rw [List.dropLast_cons_cons, at?_cons] at hu
      obtain ⟨child, hchild, hbelow⟩ := Option.bind_eq_some_iff.mp hu
      cases n with
      | file text executable => simp [entries] at hchild
      | directory es =>
        have hes : Table.find? es name = some child := hchild
        rw [put_of_entry hes, at?_insert, if_pos rfl, ih hbelow]

theorem put_put (n new : Node) (place : Place) :
    (n.put (some new) place).put (some new) place = n.put (some new) place := by
  induction place generalizing n with
  | nil => simp [put]
  | cons name rest ih =>
    cases n with
    | file text executable => rw [put_file, put_file]
    | directory es =>
      cases hes : Table.find? es name with
      | none =>
        cases rest with
        | nil => simp only [put, Table.insert_insert]
        | cons r rest => simp only [put, hes]
      | some child =>
        have hthere : ∀ u, Table.find? (Table.insert name u es) name = some u := by
          intro u
          rw [Table.find?_insert, if_pos rfl]
        rw [put_of_entry hes, put_of_entry (hthere _), ih, Table.insert_insert]

end Node

/-! ## Following names -/

namespace Files

variable {fs fs' : Files} {p q : Path} {root new : Node} {here place place' : Place}
  {way : List String} {text : String}

theorem follow_cons_eq_ok {name : String} {rest : List String}
    (h : follow root here (name :: rest) = .ok place) :
    ∃ es, root.at? here = some (.directory es) ∧ ¬ nameLimit < name.utf8ByteSize ∧
      follow root (if name == "." then here else if name == ".." then here.dropLast
        else here ++ [name]) rest = .ok place := by
  unfold follow at h
  split at h
  · cases h
  · cases h
  · next es hes =>
    by_cases hlimit : nameLimit < name.utf8ByteSize
    · rw [if_pos hlimit] at h
      cases h
    · rw [if_neg hlimit] at h
      exact ⟨es, hes, hlimit, h⟩

theorem follow_put (new : Node) (hv : root.Vacant place) (h : follow root here way = .ok place') :
    follow (root.put (some new) place) here way = .ok place' := by
  induction way generalizing here with
  | nil => exact h
  | cons name rest ih =>
    obtain ⟨es, hes, hlimit, h⟩ := follow_cons_eq_ok h
    obtain ⟨u, hu, hdir⟩ := Node.at?_put new hv hes
    obtain ⟨es', rfl⟩ := Node.isDirectory_iff.mp (hdir rfl)
    rw [follow, hu]
    simp only [if_neg hlimit]
    exact ih h

/-- Where a way of names leads, there is a directory, or a directory right above. -/
theorem isDirectory_above_of_follow (h : follow root here way = .ok place) (hne : way ≠ [])
    (hv : root.Vacant place) : ∃ u, root.at? place.dropLast = some u ∧ u.isDirectory = true := by
  induction way generalizing here with
  | nil => exact (hne rfl).elim
  | cons name rest ih =>
    obtain ⟨es, hes, -, h⟩ := follow_cons_eq_ok h
    cases rest with
    | cons m rest => exact ih h (by simp)
    | nil =>
      obtain rfl := Except.ok.inj h
      have hhere : ¬ root.Vacant here := fun hv => by simpa [Node.isDirectory] using hv _ hes
      split_ifs at hv ⊢ with hdot hup
      · exact (hhere hv).elim
      · by_cases hnil : here = []
        · subst hnil
          exact (hhere hv).elim
        · obtain ⟨u, hu, hdir⟩ := Node.isDirectory_at?_dropLast hes hnil
          rw [hv u hu] at hdir
          cases hdir
      · exact ⟨_, by rwa [List.dropLast_concat], rfl⟩

theorem locate_eq_ok : fs.locate p = .ok place ↔
    ∃ start, fs.origin p = .ok start ∧ follow fs.root start (route p) = .ok place := by
  rw [locate, bind_eq_ok]

theorem locate_put (new : Node) (hv : fs.root.Vacant place) (h : fs.locate p = .ok place') :
    (fs.put place (some new)).locate p = .ok place' := by
  obtain ⟨start, hstart, hfollow⟩ := locate_eq_ok.mp h
  exact locate_eq_ok.mpr ⟨start, hstart, follow_put new hv hfollow⟩

theorem node_eq_ok {v : Node} : fs.node p = .ok v ↔
    ∃ place, fs.locate p = .ok place ∧ fs.root.at? place = some v := by
  rw [node, bind_eq_ok]
  constructor
  · rintro ⟨place, hplace, h⟩
    refine ⟨place, hplace, ?_⟩
    split at h
    · next v' hv =>
      cases h
      exact hv
    · cases h
  · rintro ⟨place, hplace, h⟩
    exact ⟨place, hplace, by rw [h]; rfl⟩

theorem fileExists_iff : fs.fileExists p = true ↔ ∃ v, fs.node p = .ok v := by
  unfold fileExists
  cases fs.node p <;> simp [Except.toOption]

theorem fileExists_of_isDirectory (h : fs.isDirectory p = true) : fs.fileExists p = true := by
  unfold isDirectory at h
  split at h
  · next v hv => exact fileExists_iff.mpr ⟨v, hv⟩
  · cases h

/-- Nothing goes away when something is put where no directory is. -/
theorem fileExists_put (hv : fs.root.Vacant place) (h : fs.fileExists q = true) :
    (fs.put place (some new)).fileExists q = true := by
  obtain ⟨v, hnode⟩ := fileExists_iff.mp h
  obtain ⟨place', hplace, hat⟩ := node_eq_ok.mp hnode
  obtain ⟨u, hu, -⟩ := Node.at?_put new hv hat
  exact fileExists_iff.mpr ⟨u, node_eq_ok.mpr ⟨place', locate_put new hv hplace, hu⟩⟩

theorem put_put (fs : Files) (place : Place) (new : Node) :
    (fs.put place (some new)).put place (some new) = fs.put place (some new) := by
  simp [put, Node.put_put]

/-- What is put where a path leads is what the path names. -/
theorem node_put_self (new : Node) (hlocate : fs.locate p = .ok place) (hroute : route p ≠ [])
    (hv : fs.root.Vacant place) : (fs.put place (some new)).node p = .ok new := by
  obtain ⟨start, hstart, hfollow⟩ := locate_eq_ok.mp hlocate
  have habove := isDirectory_above_of_follow hfollow hroute hv
  exact node_eq_ok.mpr ⟨place, locate_put new hv hlocate, Node.at?_put_self habove⟩

/-! ## Files -/

theorem read_eq_ok : fs.read p = .ok text ↔ ∃ executable, fs.node p = .ok (.file text executable) := by
  rw [read, bind_eq_ok]
  constructor
  · rintro ⟨v, hv, h⟩
    cases v with
    | file t executable =>
      cases h
      exact ⟨executable, hv⟩
    | directory es => cases h
  · rintro ⟨executable, h⟩
    exact ⟨_, h, rfl⟩

/-- A file is written where the path leads, and keeps its permissions. -/
theorem exists_of_write (h : fs.write p text = .ok fs') : endsWithSlash p = false ∧
    ∃ place executable, fs.locate p = .ok place ∧ fs.root.Vacant place ∧
      fs' = fs.put place (some (.file text executable)) := by
  unfold write at h
  split_ifs at h with hslash
  · simp only [bind_eq_ok] at h
    obtain ⟨_, _, _, _, h⟩ := h
    cases h
  · refine ⟨by simpa using hslash, ?_⟩
    obtain ⟨place, hplace, h⟩ := bind_eq_ok.mp h
    split at h
    · cases h
    · next old executable hold =>
      cases h
      refine ⟨place, executable, hplace, fun v hv => ?_, rfl⟩
      obtain rfl : Node.file old executable = v := by simpa [hold] using hv
      rfl
    · next hnone =>
      cases h
      exact ⟨place, false, hplace, fun v hv => by simp [hnone] at hv, rfl⟩

theorem write_over {old : String} {executable : Bool} (hslash : endsWithSlash p = false)
    (hplace : fs.locate p = .ok place) (hold : fs.root.at? place = some (.file old executable)) :
    fs.write p text = .ok (fs.put place (some (.file text executable))) := by
  simp [write, hslash, hplace, hold, bind, Except.bind, pure, Except.pure]

/-- Whether a file can be written does not depend on what is written. -/
theorem exists_write (h : fs.write p text = .ok fs') (other : String) :
    ∃ gs, fs.write p other = .ok gs := by
  obtain ⟨hslash, place, _, hplace, hv, -⟩ := exists_of_write h
  cases hold : fs.root.at? place with
  | none =>
    refine ⟨fs.put place (some (.file other false)), ?_⟩
    simp [write, hslash, hplace, hold, bind, Except.bind, pure, Except.pure]
  | some v =>
    cases v with
    | file old executable => exact ⟨_, write_over hslash hplace hold⟩
    | directory es => exact absurd (hv _ hold) (by simp [Node.isDirectory])

theorem route_of_not_endsWithSlash (h : endsWithSlash p = false) : route p = names p := by
  simp [route, h]

/-- A file that was written is read as it was written. -/
theorem read_of_write (h : fs.write p text = .ok fs') (hp : names p ≠ []) :
    fs'.read p = .ok text := by
  obtain ⟨hslash, place, executable, hplace, hv, rfl⟩ := exists_of_write h
  have hroute : route p ≠ [] := by rwa [route_of_not_endsWithSlash hslash]
  exact read_eq_ok.mpr ⟨executable, node_put_self _ hplace hroute hv⟩

/-- Writing the same text again changes nothing. -/
theorem write_again (h : fs.write p text = .ok fs') (hp : names p ≠ []) :
    fs'.write p text = .ok fs' := by
  obtain ⟨hslash, place, executable, hplace, hv, rfl⟩ := exists_of_write h
  have hroute : route p ≠ [] := by rwa [route_of_not_endsWithSlash hslash]
  have hplace' := locate_put (.file text executable) hv hplace
  obtain ⟨place', hlocate, hat⟩ :=
    node_eq_ok.mp (node_put_self (.file text executable) hplace hroute hv)
  obtain rfl : place = place' := by simpa [hplace'] using hlocate
  rw [write_over hslash hplace' hat, put_put]

theorem fileExists_of_write (h : fs.write p text = .ok fs') (hq : fs.fileExists q = true) :
    fs'.fileExists q = true := by
  obtain ⟨-, place, executable, -, hv, rfl⟩ := exists_of_write h
  exact fileExists_put hv hq

/-! ## Directories -/

theorem fileExists_of_makeDirectory (h : fs.makeDirectory p = .ok fs')
    (hslash : endsWithSlash p = false) (hp : names p ≠ []) : fs'.fileExists p = true := by
  obtain ⟨start, hstart, h⟩ := bind_eq_ok.mp h
  obtain ⟨place, hfollow, h⟩ := bind_eq_ok.mp h
  have hroute := route_of_not_endsWithSlash hslash
  have hplace : fs.locate p = .ok place := locate_eq_ok.mpr ⟨start, hstart, by rwa [hroute]⟩
  split at h
  · cases h
  · next hnone =>
    cases h
    have hv : fs.root.Vacant place := fun v hv => by simp [hnone] at hv
    exact fileExists_iff.mpr ⟨_, node_put_self _ hplace (by rwa [hroute]) hv⟩

/-- A directory that was made with all directories above it is there. -/
theorem fileExists_of_makeDirectories (h : fs.makeDirectories p = .ok fs')
    (hslash : endsWithSlash p = false) (hp : names p ≠ []) : fs'.fileExists p = true := by
  have htext : (p.text == "") = false := by
    refine beq_eq_false_iff_ne.mpr fun htext => hp ?_
    simp [names, Path.segments, htext]
  simp only [makeDirectories, makeAll, htext, Bool.false_eq_true, if_false] at h
  split at h
  · next made hmade =>
    cases h
    exact fileExists_of_makeDirectory hmade hslash hp
  · split_ifs at h with herror hdir
    · cases h
      exact fileExists_of_isDirectory hdir
    · split at h
      · cases h
      · obtain ⟨above, -, h⟩ := bind_eq_ok.mp h
        split at h
        · next made hmade =>
          cases h
          exact fileExists_of_makeDirectory hmade hslash hp
        · split_ifs at h with hdir
          cases h
          exact fileExists_of_isDirectory hdir

end Files

end Supervisor
