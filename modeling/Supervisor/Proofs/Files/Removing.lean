import Supervisor.Proofs.Files.Writing
import Supervisor.Proofs.Table
/-!
# Removing directories

What is taken away at a place of a tree is not found there any more, and no way can be followed then
that could not be followed before. So nothing is left under a path whose directory was removed by its
own name.
-/
namespace Supervisor

namespace Node

variable {n v : Node} {here place : Place}

theorem put_none_file (text : String) (executable : Bool) (place : Place) :
    (file text executable).put none place = file text executable := by
  match place with
  | [] | [_] | _ :: _ :: _ => rfl

/-- Taking something away below an entry. -/
theorem put_none_of_entry {es : Table Node} {child : Node} {name : String}
    (h : es.find? name = some child) (r : String) (rest : Place) :
    (directory es).put none (name :: r :: rest) =
      .directory (Table.insert name (child.put none (r :: rest)) es) := by
  simp only [put, h]

/-- What is found after something was taken away was there before, and a directory was one. -/
theorem at?_of_put_none (h : (n.put none place).at? here = some v) :
    ∃ u, n.at? here = some u ∧ (v.isDirectory = true → u.isDirectory = true) := by
  induction place generalizing n here with
  | nil => exact ⟨v, h, id⟩
  | cons name rest ih =>
    cases n with
    | file text executable => exact ⟨v, by rwa [put_none_file] at h, id⟩
    | directory es =>
      cases here with
      | nil => exact ⟨_, at?_nil _, fun _ => rfl⟩
      | cons m below =>
        cases rest with
        | nil =>
          rw [put, at?_cons, entries, Table.find?_erase] at h
          split_ifs at h with hm
          · cases h
          · exact ⟨v, h, id⟩
        | cons r rest =>
          cases hes : Table.find? es name with
          | none => exact ⟨v, by simpa only [put, hes] using h, id⟩
          | some child =>
            rw [put_none_of_entry hes, at?_insert] at h
            split_ifs at h with hm
            · subst hm
              rw [at?_entry hes]
              exact ih h
            · exact ⟨v, h, id⟩

theorem at?_put_none_self (hne : place ≠ []) : (n.put none place).at? place = none := by
  induction place generalizing n with
  | nil => exact (hne rfl).elim
  | cons name rest ih =>
    cases n with
    | file text executable =>
      rw [put_none_file]
      rfl
    | directory es =>
      cases rest with
      | nil => rw [put, at?_cons, entries, Table.find?_erase, if_pos rfl, Option.bind_none]
      | cons r rest =>
        cases hes : Table.find? es name with
        | none => simp only [put, hes, at?_cons, entries, Option.bind_none]
        | some child => rw [put_none_of_entry hes, at?_insert, if_pos rfl, ih (by simp)]

end Node

namespace Files

variable {fs fs' : Files} {p : Path} {root : Node} {here place place' : Place} {way : List String}

theorem follow_of_put_none (h : follow (root.put none place) here way = .ok place') :
    follow root here way = .ok place' := by
  induction way generalizing here with
  | nil => exact h
  | cons name rest ih =>
    obtain ⟨es, hes, hlimit, h⟩ := follow_cons_eq_ok h
    obtain ⟨u, hu, hdir⟩ := Node.at?_of_put_none hes
    obtain ⟨es', rfl⟩ := Node.isDirectory_iff.mp (hdir rfl)
    rw [follow, hu]
    simp only [if_neg hlimit]
    exact ih h

theorem locate_of_put_none (h : (fs.put place none).locate p = .ok place') :
    fs.locate p = .ok place' := by
  obtain ⟨start, hstart, hfollow⟩ := locate_eq_ok.mp h
  exact locate_eq_ok.mpr ⟨start, hstart, follow_of_put_none hfollow⟩

/-- The last step of a way. -/
theorem follow_snoc {name : String} (h : follow root here (way ++ [name]) = .ok place) :
    ∃ mid, follow root here way = .ok mid ∧
      place = if name == "." then mid else if name == ".." then mid.dropLast else mid ++ [name] := by
  induction way generalizing here with
  | nil =>
    obtain ⟨es, hes, hlimit, h⟩ := follow_cons_eq_ok h
    exact ⟨here, rfl, (Except.ok.inj h).symm⟩
  | cons m rest ih =>
    obtain ⟨es, hes, hlimit, h⟩ := follow_cons_eq_ok h
    obtain ⟨mid, hmid, hplace⟩ := ih h
    refine ⟨mid, ?_, hplace⟩
    rw [follow, hes]
    simp only [if_neg hlimit]
    exact hmid

/-- A path that ends in a name does not lead to the root. -/
theorem ne_nil_of_endsInName (hp : endsInName p = true) (h : fs.locate p = .ok place) : place ≠ [] := by
  obtain ⟨start, -, hfollow⟩ := locate_eq_ok.mp h
  unfold endsInName at hp
  split at hp
  · next name hname =>
    obtain ⟨before, hnames⟩ := List.getLast?_eq_some_iff.mp hname
    have hnamed : ∀ {end' : Place}, follow fs.root start (names p) = .ok end' → end' ≠ [] := by
      intro end' hend
      rw [hnames] at hend
      obtain ⟨mid, -, rfl⟩ := follow_snoc hend
      obtain ⟨hdot, hup⟩ : name ≠ "." ∧ name ≠ ".." := by simpa using hp
      simp [hdot, hup]
    unfold route at hfollow
    split_ifs at hfollow
    · obtain ⟨mid, hmid, rfl⟩ := follow_snoc hfollow
      exact hnamed hmid
    · exact hnamed hfollow
  · cases hp

/-- Does the system do what it is asked for, when a directory is to be removed? It does not remove a
file, nor a directory that the path does not name by its own name. -/
def Grants (fs : Files) (p : Path) : Prop :=
  endsInName p = true ∧ ∀ e, fs.removeDirectory p = .error e → e = .notFound

theorem fileExists_eq_false : fs.fileExists p = false ↔ ∀ v, fs.node p ≠ .ok v := by
  rw [← Bool.not_eq_true, fileExists_iff, not_exists]

theorem fileExists_of_removeDirectory (h : fs.removeDirectory p = .ok fs') (hp : endsInName p = true) :
    fs'.fileExists p = false := by
  obtain ⟨place, hplace, h⟩ := bind_eq_ok.mp h
  split at h
  · cases h
  · cases h
  · rw [if_pos hp] at h
    cases h
    refine fileExists_eq_false.mpr fun v hv => ?_
    obtain ⟨place', hplace', hat⟩ := node_eq_ok.mp hv
    obtain rfl : place = place' := by simpa [hplace] using locate_of_put_none hplace'
    have hnone := Node.at?_put_none_self (n := fs.root) (ne_nil_of_endsInName hp hplace)
    cases hnone.symm.trans hat

theorem fileExists_of_not_removed (h : fs.removeDirectory p = .error .notFound) :
    fs.fileExists p = false := by
  refine fileExists_eq_false.mpr fun v hv => ?_
  obtain ⟨place, hplace, hat⟩ := node_eq_ok.mp hv
  rw [removeDirectory, hplace] at h
  simp only [bind, Except.bind, hat] at h
  cases v <;> cases h

end Files

end Supervisor
