import Supervisor.Proofs.Coordinator.Moves
/-!
# Registers

The happenings of a coordinator can stand among incidents of another kind. A register is written from all
of them, and each has to meet a law, by what was written before it. What a coordinator does in a turn is
shown to meet it by a watch that writes the same.
-/
namespace Supervisor.Coordinator

structure Register (ι γ : Type) where
  start : γ
  add : γ → ι → γ
  law : γ → ι → Prop

namespace Register
variable {ι γ : Type} (l : Register ι γ)

def read (h : List ι) : γ := h.foldl l.add l.start

@[simp] theorem read_nil : l.read [] = l.start := rfl

theorem read_append (h h' : List ι) : l.read (h ++ h') = h'.foldl l.add (l.read h) :=
  List.foldl_append

@[simp] theorem read_snoc (h : List ι) (i : ι) : l.read (h ++ [i]) = l.add (l.read h) i :=
  l.read_append h [i]

/-- The law was kept all along. -/
def Kept (h : List ι) : Prop := ∀ before i after, h = before ++ i :: after → l.law (l.read before) i

theorem kept_nil : l.Kept [] := by
  intro before i after he
  simp at he

variable {l} {h : List ι}

theorem Kept.snoc (hk : l.Kept h) {i : ι} (hi : l.law (l.read h) i) : l.Kept (h ++ [i]) := by
  intro before j after he
  rcases List.eq_nil_or_concat after with rfl | ⟨after', k, rfl⟩
  · obtain ⟨rfl, hlast⟩ := List.append_inj' he rfl
    obtain rfl := (List.cons.inj hlast).1
    exact hi
  · rw [List.concat_eq_append, ← List.cons_append, ← List.append_assoc] at he
    exact hk before j after' (List.append_inj' he rfl).1

/-- Incidents of a kind that is under no law. -/
theorem Kept.append_map {δ : Type} (hk : l.Kept h) {f : δ → ι} (hf : ∀ g d, l.law g (f d))
    (ds : List δ) : l.Kept (h ++ ds.map f) := by
  induction ds generalizing h with
  | nil => simpa using hk
  | cons d ds ih =>
    rw [List.map_cons, List.append_cons]
    exact ih (hk.snoc (hf _ d))

/-- At a happening that is put down as an incident, the watch writes what the register writes, and its law
is no weaker. -/
structure Watched (l : Register ι γ) (put : Happening → ι) (w : Watch γ) : Prop where
  note : ∀ g e, w.note g e = l.add g (put e)
  law : ∀ g e, w.law g e → l.law g (put e)

variable {put : Happening → ι} {w : Watch γ} (hw : l.Watched put w)
include hw

/-- What the moments of a turn add. -/
theorem Watched.moments (hk : l.Kept h) {now : Nat} {ms : List Moment} {P : γ → Prop}
    (hm : w.Passes now ms (l.read h) P) :
    l.Kept (h ++ ms.map fun m => put (.did now m.seen m.output)) ∧
      P (l.read (h ++ ms.map fun m => put (.did now m.seen m.output))) := by
  induction ms generalizing h with
  | nil => simpa using ⟨hk, hm⟩
  | cons m ms ih =>
    obtain ⟨hlaw, hrest⟩ := hm
    rw [hw.note, ← l.read_snoc] at hrest
    rw [List.map_cons, List.append_cons]
    exact ih (hk.snoc (hw.law _ _ hlaw)) hrest

/-- What a signal adds, if each move of the coordinator keeps what holds at its points. -/
theorem Watched.onward (at' : Point → γ → Coordinator → Prop)
    (hmove : ∀ {now g c p ms c' p'}, p.Sound c → Move now c p ms c' p' → at' p g c →
      w.Passes now ms g fun g' => at' p' g' c')
    (hk : l.Kept h) {c : Coordinator} (now : Nat) {s : Signal} (hc : c.point.Sound c)
    (hs : s.Fits Stage.accepts c) (hlaw : l.law (l.read h) (put (.heard now c s)))
    (ha : at' (s.target c) (l.add (l.read h) (put (.heard now c s))) (s.effect c)) :
    l.Kept (h ++ (Turn.since (c.hear now s) [.heard now c s]).map put) ∧
      (c.hear now s).state.point.Sound (c.hear now s).state ∧
      at' (c.hear now s).state.point
        (l.read (h ++ (Turn.since (c.hear now s) [.heard now c s]).map put)) (c.hear now s).state := by
  have hsound := Signal.sound hs hc
  obtain ⟨hnow, ms, hms, ht⟩ := hear_ends c now hs hsound
  rw [← l.read_snoc] at ha
  obtain ⟨hk', ha'⟩ := hw.moments (hk.snoc hlaw) (ht.passes hmove hsound ha)
  have hstory : h ++ (Turn.since (c.hear now s) [.heard now c s]).map put =
      h ++ [put (.heard now c s)] ++ ms.map fun m => put (.did now m.seen m.output) := by
    simp [Turn.since, hms, hnow]
  rw [hstory]
  exact ⟨hk', ht.sound hsound, ha'⟩

end Register

end Supervisor.Coordinator
