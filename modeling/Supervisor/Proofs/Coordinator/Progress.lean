import Supervisor.Proofs.Coordinator.Collaborators
import Supervisor.Proofs.Coordinator.Lineup
/-!
# Progress of a coordinator

Each reply brings the running operation nearer to its end, and each operation that ends makes room for
the next one. So a coordinator in company that answers gets everything done that was submitted.
-/
namespace Supervisor

/-- More than the calls that an operation can still make from there, itself included. -/
def Stage.distance : Stage → Nat
  | .stoppingDependent _ => 16
  | .stoppingOld _ _ _ => 14
  | .clearing _ => 12
  | .preparing _ => 10
  | .launching _ => 8
  | .awaitingReady _ _ => 6
  | .stoppingUnready _ _ _ | .yielding _ _ _ => 4
  | .resumingDependent _ _ | .shuttingDown _ _ | .removingCache _ => 2

theorem Stage.distance_of_guarding {stage : Stage} {s : Sequence} (hs : stage.guarding? = some s) :
    4 ≤ stage.distance := by
  cases stage <;> simp_all [guarding?, distance]

theorem Stage.distance_pos (stage : Stage) : 0 < stage.distance := by
  cases stage <;> simp [distance]

namespace Coordinator

def Point.distance : Point → Nat
  | .idle | .looking | .finish _ | .close _ => 0
  | .begun _ | .entering _ _ | .entered _ => 16
  | .dropping (.sequence _) => 14
  | .clear _ => 12
  | .prepare _ => 10
  | .launch _ _ => 8
  | .awaitReady _ _ => 6
  | .stopUnready _ _ _ | .dropping (.yielding _) => 4
  | .succeed _ _ | .fail _ _ | .leave _ _ | .dropping .shutdown | .clearOwnCache _ => 2
  | .waiting stage => stage.distance
  | .answered stage _ => stage.distance - 1

/-- What is left to do at a point; an operation that waits counts for more than any point. -/
def load (c : Coordinator) (p : Point) : Nat := p.distance + 17 * c.queue.waiting.length

section
variable {now : Nat} {c c' : Coordinator} {p p' : Point} {ms : List Moment}

theorem Move.distance_le (hm : Move now c p ms c' p') (hp : p ≠ .looking) :
    p'.distance ≤ p.distance := by
  cases hm with
  | take | rest => exact (hp rfl).elim
  | gone p | stopped p => cases p <;> simp [Purpose.next, Purpose.stage, Point.distance, Stage.distance]
  | drop p => cases p <;> simp [Purpose.stage, Point.distance, Stage.distance]
  | callFails f hs =>
    rcases hs with rfl | rfl | rfl <;> simp [Point.distance, Stage.distance]
  | sequencePanics payload hs =>
    have hd := Stage.distance_of_guarding hs
    simp only [Point.distance]
    omega
  | _ => simp [Point.distance, Stage.distance]

theorem Move.load_le (hm : Move now c p ms c' p') : c'.load p' ≤ c.load p := by
  by_cases hp : p = .looking
  · subst hp
    cases hm with
    | take hq =>
      have hw := congrArg List.length (Dispatcher.waiting_start? hq)
      simp only [List.length_cons] at hw
      simp only [load, Point.distance]
      omega
    | rest => exact Nat.le_refl _
  · have hd := hm.distance_le hp
    have hw := hm.waiting_le
    simp only [load]
    omega

theorem Trail.load_le (h : Trail now c p ms c' p') : c'.load p' ≤ c.load p := by
  induction h with
  | refl => exact Nat.le_refl _
  | move hm _ ih => exact Nat.le_trans ih hm.load_le

/-- Who looks into a queue in which something waits takes it out. -/
theorem Trail.load_lt (h : Trail now c .looking ms c' c'.point) (hr : c.queue.running = none)
    (hw : c.queue.waiting ≠ []) : c'.load c'.point < c.load .looking := by
  obtain ⟨c₁, p₁, _, _, hm, ht, -⟩ := h.begins rfl
  have hl := ht.load_le
  cases hm with
  | take hq =>
    have hlen := congrArg List.length (Dispatcher.waiting_start? hq)
    simp only [List.length_cons] at hlen
    simp only [load, Point.distance] at hl ⊢
    omega
  | rest hq => exact (hw (Dispatcher.waiting_of_start?_none hr hq)).elim

theorem load_reply {stage : Stage} {r : Reply} (now : Nat) (hs : c.point.Sound c)
    (hstage : c.stage = some stage) (hr : stage.accepts r = true) :
    (c.hear now (.reply r)).state.load (c.hear now (.reply r)).state.point < c.load c.point := by
  have hl := (reply_trail now hs hstage hr).load_le
  have hp : c.point = .waiting stage := by
    simp only [point, hstage]
  have hd := stage.distance_pos
  have hlt : c.load (.answered stage r) < c.load (.waiting stage) := by
    simp only [load, Point.distance]
    omega
  rw [hp]
  exact Nat.lt_of_le_of_lt hl hlt

theorem load_wake (now : Nat) (hstage : c.stage = none) (hr : c.queue.running = none)
    (hw : c.queue.waiting ≠ []) :
    (c.hear now .wake).state.load (c.hear now .wake).state.point < c.load c.point := by
  have ha : Signal.wake.target c = .looking := by
    simp only [Signal.target, halt, hstage]
  have hp : c.point = .idle := by
    simp only [point, hstage]
  obtain ⟨-, ms, -, ht⟩ := hear_ends c now (s := .wake) trivial (ha ▸ ⟨hstage, hr⟩)
  rw [ha] at ht
  rw [hp]
  exact ht.load_lt hr hw

end

/-! ## Runs that go on -/

theorem submitted_dids (now : Nat) (ms : List Moment) (h : Story) :
    (lineups.read (h ++ ms.map fun m => .did now m.seen m.output)).submitted =
      (lineups.read h).submitted := by
  induction ms generalizing h with
  | nil => simp
  | cons m ms ih =>
    have hm : (lineups.read (h ++ [.did now m.seen m.output])).submitted =
        (lineups.read h).submitted := by
      rw [Watch.read_snoc]
      cases m.output <;> rfl
    have hi := ih (h ++ [.did now m.seen m.output])
    rw [hm] at hi
    simpa using hi

theorem submitted_since (c : Coordinator) (now : Nat) {s : Signal} (h : Story)
    (hs : ∀ op, s ≠ .submit op) :
    (lineups.read ((c.hear now s).since (h ++ [.heard now c s]))).submitted =
      (lineups.read h).submitted := by
  have hd := submitted_dids (c.hear now s).now (c.hear now s).moments (h ++ [.heard now c s])
  rw [Watch.read_snoc] at hd
  refine hd.trans ?_
  cases s with
  | submit op => exact (hs op rfl).elim
  | _ => rfl

theorem exists_since_eq_append (t : Turn) (h : Story) (e : Happening) :
    ∃ more, t.since (h ++ [e]) = h ++ more := by
  refine ⟨e :: t.moments.map fun m => .did t.now m.seen m.output, ?_⟩
  simp [Turn.since]

namespace RunIn
variable {name toolName : String} {settings : Settings} {h : Story} {c : Coordinator}
variable {b : Ticket → Company}

/-- As long as something is left to do, the next signal leaves less. -/
theorem goes_on (hr : RunIn b (fresh name toolName settings) h c)
    (hleft : c.queue.running ≠ none ∨ c.queue.waiting ≠ []) :
    ∃ more c', RunIn b (fresh name toolName settings) (h ++ more) c' ∧
      (lineups.read (h ++ more)).submitted = (lineups.read h).submitted ∧
      c'.load c'.point < c.load c.point := by
  have hs : c.point.Sound c := (Lineup.run_holds (fun _ _ hs => hs) hr.run).2.1
  cases hstage : c.stage with
  | some stage =>
    have hnext := hr.answer _ _ hstage rfl
    have hq := submitted_since c ((journals.read h).asked + (stage.reaction (c.company b)).1)
      (s := .reply (stage.reaction (c.company b)).2) h (by simp)
    have hlt := load_reply ((journals.read h).asked + (stage.reaction (c.company b)).1) hs hstage
      (stage.accepts_reaction (c.company b))
    obtain ⟨more, hmore⟩ := exists_since_eq_append (c.hear _ _) h
      (.heard ((journals.read h).asked + (stage.reaction (c.company b)).1) c
        (.reply (stage.reaction (c.company b)).2))
    rw [hmore] at hnext hq
    exact ⟨more, _, hnext, hq, hlt⟩
  | none =>
    simp only [point, hstage] at hs
    have hw : c.queue.waiting ≠ [] := by
      rcases hleft with hn | hw
      · exact (hn hs.2).elim
      · exact hw
    have hnext := hr.hear (journals.read h).asked .wake trivial trivial
    have hq := submitted_since c (journals.read h).asked (s := .wake) h (by simp)
    have hlt := load_wake (journals.read h).asked hstage hs.2 hw
    obtain ⟨more, hmore⟩ := exists_since_eq_append (c.hear _ _) h
      (.heard (journals.read h).asked c .wake)
    rw [hmore] at hnext hq
    exact ⟨more, _, hnext, hq, hlt⟩

/-- Everything that was submitted gets done in the end. -/
theorem completes (hr : RunIn b (fresh name toolName settings) h c) :
    ∃ more c', RunIn b (fresh name toolName settings) (h ++ more) c' ∧
      (lineups.read (h ++ more)).submitted = (lineups.read h).submitted ∧
      c'.queue.running = none ∧ c'.queue.waiting = [] := by
  induction hn : c.load c.point using Nat.strongRecOn generalizing h c with
  | ind n ih =>
    by_cases hleft : c.queue.running ≠ none ∨ c.queue.waiting ≠ []
    · obtain ⟨more, c', hr', hq, hlt⟩ := hr.goes_on hleft
      obtain ⟨more', c'', hr'', hq', hdone⟩ := ih _ (hn ▸ hlt) hr' rfl
      rw [List.append_assoc] at hr'' hq'
      exact ⟨more ++ more', c'', hr'', hq'.trans hq, hdone⟩
    · have hdone : c.queue.running = none ∧ c.queue.waiting = [] := by
        simpa only [ne_eq, not_or, Decidable.not_not] using hleft
      exact ⟨[], c, by simpa using hr, by simp, hdone⟩

end RunIn

end Coordinator

end Supervisor
