import Mathlib.Data.List.TakeWhile
import Supervisor.Text.Blank
/-!
# Trimming

What is left of a text when the blanks around it are taken away, and where its first word ends.
-/
namespace Supervisor.Text

theorem isBlank_of_isDigit {c : Char} (hc : c.isDigit = true) : isBlank c = false := by
  have hd : 48 ≤ c.toNat ∧ c.toNat ≤ 57 := Char.isDigit_iff_toNat.mp hc
  by_contra hb
  simp only [isBlank, Bool.not_eq_false, Bool.or_eq_true, Bool.and_eq_true, decide_eq_true_eq,
    beq_iff_eq] at hb
  omega

/-- There are only blanks. -/
def IsGap (cs : List Char) : Prop := ∀ c ∈ cs, isBlank c = true

/-- There are no blanks. -/
def IsSolid (cs : List Char) : Prop := ∀ c ∈ cs, isBlank c = false

instance (cs : List Char) : Decidable (IsGap cs) :=
  decidable_of_iff (cs.all isBlank = true) List.all_eq_true

instance (cs : List Char) : Decidable (IsSolid cs) :=
  decidable_of_iff (cs.all (!isBlank ·) = true) (by simp [IsSolid])

theorem IsSolid.not_mem {cs : List Char} {c : Char} (hs : IsSolid cs) (hc : isBlank c = true) :
    c ∉ cs := by
  intro hm
  have hn := hs c hm
  simp [hc] at hn

theorem IsSolid.append {cs ds : List Char} (hc : IsSolid cs) (hd : IsSolid ds) :
    IsSolid (cs ++ ds) := by
  intro c hm
  rcases List.mem_append.mp hm with h | h
  · exact hc c h
  · exact hd c h

theorem IsGap.append {cs ds : List Char} (hc : IsGap cs) (hd : IsGap ds) : IsGap (cs ++ ds) := by
  intro c hm
  rcases List.mem_append.mp hm with h | h
  · exact hc c h
  · exact hd c h

theorem dropWhile_gap {before : List Char} (hb : IsGap before) (cs : List Char) :
    (before ++ cs).dropWhile isBlank = cs.dropWhile isBlank :=
  List.dropWhile_append_of_pos hb

theorem dropWhile_solid {word : List Char} (hw : IsSolid word) : word.dropWhile isBlank = word := by
  cases word with
  | nil => rfl
  | cons c word =>
    have hc := hw c (by simp)
    simp [hc]

theorem exists_trimEnd (cs : List Char) : ∃ after, IsGap after ∧ cs = trimEnd cs ++ after := by
  refine ⟨(cs.reverse.takeWhile isBlank).reverse, ?_, ?_⟩
  · intro c hc
    exact List.mem_takeWhile_imp (List.mem_reverse.mp hc)
  · rw [trimEnd, ← List.reverse_append, List.takeWhile_append_dropWhile, List.reverse_reverse]

theorem exists_trim (cs : List Char) :
    ∃ before after, IsGap before ∧ IsGap after ∧ cs = before ++ trim cs ++ after := by
  obtain ⟨after, ha, hend⟩ := exists_trimEnd (trimStart cs)
  refine ⟨cs.takeWhile isBlank, after, fun c hc => List.mem_takeWhile_imp hc, ha, ?_⟩
  rw [trim, List.append_assoc, ← hend]
  exact List.takeWhile_append_dropWhile.symm

/-- A word: some characters, and no blanks among them. -/
structure IsWord (cs : List Char) : Prop where
  solid : IsSolid cs
  ne_nil : cs ≠ []

/-- A gap that keeps two words apart. -/
structure IsBreak (cs : List Char) : Prop where
  gap : IsGap cs
  ne_nil : cs ≠ []

/-- A word before this ends there. -/
def Breaks (cs : List Char) : Prop := ∀ c, cs.head? = some c → isBlank c = true

theorem isGap_nil : IsGap [] := by
  intro c hc
  cases hc

theorem IsGap.breaks {cs : List Char} (h : IsGap cs) : Breaks cs := fun c hc =>
  h c (List.mem_of_mem_head? hc)

theorem IsBreak.breaks_append {gap : List Char} (h : IsBreak gap) (cs : List Char) :
    Breaks (gap ++ cs) := by
  obtain ⟨c, gap, rfl⟩ := List.exists_cons_of_ne_nil h.ne_nil
  intro d hd
  obtain rfl : c = d := by simpa using hd
  exact h.gap c (by simp)

theorem IsBreak.breaks_between {gap : List Char} (h : IsBreak gap) (cs rest : List Char) :
    Breaks (gap ++ cs ++ rest) := by
  rw [List.append_assoc]
  exact h.breaks_append _

theorem IsWord.not_gap {word : List Char} (h : IsWord word) : ¬ IsGap word := by
  intro hg
  obtain ⟨c, word, rfl⟩ := List.exists_cons_of_ne_nil h.ne_nil
  have hs := h.solid c (by simp)
  simp [hg c (by simp)] at hs

theorem isGap_append {cs ds : List Char} : IsGap (cs ++ ds) ↔ IsGap cs ∧ IsGap ds := by
  constructor
  · intro h
    exact ⟨fun c hc => h c (List.mem_append_left _ hc), fun c hc => h c (List.mem_append_right _ hc)⟩
  · rintro ⟨hc, hd⟩
    exact hc.append hd

theorem trimEnd_append_gap (cs : List Char) {after : List Char} (ha : IsGap after) :
    trimEnd (cs ++ after) = trimEnd cs := by
  have ha' : IsGap after.reverse := fun c hc => ha c (List.mem_reverse.mp hc)
  rw [trimEnd, List.reverse_append, dropWhile_gap ha', trimEnd]

theorem trimEnd_gap {cs : List Char} (h : IsGap cs) : trimEnd cs = [] := trimEnd_append_gap [] h

theorem trimEnd_solid {cs : List Char} (h : IsSolid cs) : trimEnd cs = cs := by
  have hsolid : IsSolid cs.reverse := fun c hc => h c (List.mem_reverse.mp hc)
  rw [trimEnd, dropWhile_solid hsolid, List.reverse_reverse]

theorem trimEnd_append_of_not_gap (cs : List Char) {ds : List Char} (hd : ¬ IsGap ds) :
    trimEnd (cs ++ ds) = cs ++ trimEnd ds := by
  have hne : ds.reverse.dropWhile isBlank ≠ [] := by
    intro h
    exact hd fun c hc => List.dropWhile_eq_nil_iff.mp h c (List.mem_reverse.mpr hc)
  have he : (ds.reverse.dropWhile isBlank).isEmpty = false := by simpa using hne
  rw [trimEnd, trimEnd, List.reverse_append, List.dropWhile_append, he]
  simp

theorem trimStart_gap_append {before : List Char} (hb : IsGap before) (cs : List Char) :
    trimStart (before ++ cs) = trimStart cs := dropWhile_gap hb cs

theorem trimStart_gap {cs : List Char} (h : IsGap cs) : trimStart cs = [] :=
  List.dropWhile_eq_nil_iff.mpr h

theorem trim_append_gap (cs : List Char) {after : List Char} (ha : IsGap after) :
    trim (cs ++ after) = trim cs := by
  by_cases hc : IsGap cs
  · rw [trim, trim, trimStart_gap hc, trimStart_gap (hc.append ha)]
  · have hne : (cs.dropWhile isBlank).isEmpty = false := by
      simpa [List.dropWhile_eq_nil_iff, IsGap] using hc
    have hstart : trimStart (cs ++ after) = trimStart cs ++ after := by
      simp only [trimStart, List.dropWhile_append, hne, Bool.false_eq_true, if_false]
    rw [trim, trim, hstart, trimEnd_append_gap _ ha]

theorem trim_gap_append {before : List Char} (hb : IsGap before) (cs : List Char) :
    trim (before ++ cs) = trim cs := by
  rw [trim, trimStart_gap_append hb, ← trim]

/-- Blanks around a text do not count. -/
theorem trim_between {before after : List Char} (hb : IsGap before) (ha : IsGap after)
    (cs : List Char) : trim (before ++ cs ++ after) = trim cs := by
  rw [trim_append_gap _ ha, trim_gap_append hb]

theorem trim_trim (cs : List Char) : trim (trim cs) = trim cs := by
  obtain ⟨before, after, hb, ha, he⟩ := exists_trim cs
  have htrim := trim_between hb ha (trim cs)
  rw [← he] at htrim
  exact htrim.symm

theorem trim_eq_nil_iff {cs : List Char} : trim cs = [] ↔ IsGap cs := by
  constructor
  · intro h
    obtain ⟨before, after, hb, ha, he⟩ := exists_trim cs
    rw [h, List.append_nil] at he
    rw [he]
    exact hb.append ha
  · intro h
    have ht := trim_between h isGap_nil []
    simpa [trim, trimEnd] using ht

theorem trim_word {word : List Char} (hw : IsWord word) (rest : List Char) :
    trim (word ++ rest) = word ++ trimEnd rest := by
  obtain ⟨c, tail, rfl⟩ := List.exists_cons_of_ne_nil hw.ne_nil
  have hstart : trimStart (c :: tail ++ rest) = c :: tail ++ rest :=
    trimStart_cons_of_not_blank (hw.solid c List.mem_cons_self)
  rw [trim, hstart]
  by_cases hr : IsGap rest
  · rw [trimEnd_append_gap _ hr, trimEnd_solid hw.solid, trimEnd_gap hr, List.append_nil]
  · exact trimEnd_append_of_not_gap _ hr

/-- A gap cannot reach into what is solid. -/
theorem trim_around {before word after : List Char} (hb : IsGap before) (hw : IsSolid word)
    (ha : IsGap after) : trim (before ++ word ++ after) = word := by
  have hstart : trimStart word = word := dropWhile_solid hw
  rw [trim_between hb ha, trim, hstart, trimEnd_solid hw]

/-! ## Words -/

theorem exists_word (cs : List Char) : IsGap cs ∨ ∃ before word rest, IsGap before ∧ IsWord word ∧
    Breaks rest ∧ cs = before ++ word ++ rest := by
  have hsplit := (List.takeWhile_append_dropWhile (p := isBlank) (l := cs)).symm
  have hbefore : IsGap (cs.takeWhile isBlank) := fun c hc => List.mem_takeWhile_imp hc
  cases hcs : cs.dropWhile isBlank with
  | nil => exact .inl (List.dropWhile_eq_nil_iff.mp hcs)
  | cons c tail =>
    have hc : isBlank c = false := by
      have hhead := List.head?_dropWhile_not isBlank cs
      simpa [hcs] using hhead
    rw [hcs] at hsplit
    refine .inr ⟨cs.takeWhile isBlank, c :: tail.takeWhile (!isBlank ·), tail.dropWhile (!isBlank ·),
      hbefore, ⟨?_, by simp⟩, ?_, ?_⟩
    · intro d hd
      rcases List.mem_cons.mp hd with rfl | hd
      · exact hc
      · simpa using List.mem_takeWhile_imp hd
    · intro d hd
      have hhead := List.head?_dropWhile_not (!isBlank ·) tail
      simpa [hd] using hhead
    · rw [List.append_assoc, List.cons_append, List.takeWhile_append_dropWhile]
      exact hsplit

/-- A gap before a word is not empty where a word has ended. -/
theorem IsGap.isBreak {gap word rest : List Char} (hg : IsGap gap) (hw : IsWord word)
    (hb : Breaks (gap ++ word ++ rest)) : IsBreak gap := by
  refine ⟨hg, ?_⟩
  rintro rfl
  obtain ⟨c, tail, rfl⟩ := List.exists_cons_of_ne_nil hw.ne_nil
  have hc := hw.solid c List.mem_cons_self
  rw [hb c rfl] at hc
  cases hc

theorem splitAtBlank_solid {word : List Char} (hw : IsSolid word) :
    splitAtBlank word = (word, none) := by
  have hdrop : word.dropWhile (!isBlank ·) = [] :=
    List.dropWhile_eq_nil_iff.mpr fun c hc => by simp [hw c hc]
  rw [splitAtBlank, hdrop]

theorem splitAtBlank_append {word : List Char} (hw : IsSolid word) {b : Char}
    (hb : isBlank b = true) (rest : List Char) :
    splitAtBlank (word ++ b :: rest) = (word, some rest) := by
  have hall : ∀ c ∈ word, (!isBlank c) = true := fun c hc => by simp [hw c hc]
  have hdrop : (word ++ b :: rest).dropWhile (!isBlank ·) = b :: rest := by
    rw [List.dropWhile_append_of_pos hall]
    simp [hb]
  have htake : (word ++ b :: rest).takeWhile (!isBlank ·) = word := by
    rw [List.takeWhile_append_of_pos hall]
    simp [hb]
  rw [splitAtBlank, hdrop, htake]

/-- What a text begins with, and what is left of it. -/
theorem splitAtBlank_trim {before word rest : List Char} (hb : IsGap before) (hw : IsWord word)
    (hr : Breaks rest) :
    (splitAtBlank (trim (before ++ word ++ rest)) = (word, none) ∧ IsGap rest) ∨
      ∃ more, splitAtBlank (trim (before ++ word ++ rest)) = (word, some more) ∧ ¬ IsGap rest ∧
        trim more = trim rest := by
  have htext := trim_between hb isGap_nil (word ++ rest)
  rw [List.append_nil, ← List.append_assoc, trim_word hw] at htext
  rw [htext]
  by_cases hg : IsGap rest
  · rw [trimEnd_gap hg, List.append_nil]
    exact .inl ⟨splitAtBlank_solid hw.solid, hg⟩
  · right
    cases rest with
    | nil => exact (hg isGap_nil).elim
    | cons b rest =>
      have hblank : isBlank b = true := hr b rfl
      have hgap : IsGap [b] := by
        intro c hc
        obtain rfl := List.mem_singleton.mp hc
        exact hblank
      have hrest : ¬ IsGap rest := fun h => hg (isGap_append.mpr ⟨hgap, h⟩)
      have hend : trimEnd (b :: rest) = b :: trimEnd rest := trimEnd_append_of_not_gap [b] hrest
      obtain ⟨after, ha, hafter⟩ := exists_trimEnd rest
      have hmore := trim_between hgap ha (trimEnd rest)
      rw [List.append_assoc, ← hafter] at hmore
      exact ⟨trimEnd rest, by rw [hend, splitAtBlank_append hw.solid hblank], hg, hmore.symm⟩

end Supervisor.Text
