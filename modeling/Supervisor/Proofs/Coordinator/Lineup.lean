import Supervisor.Proofs.Coordinator.Moves
/-!
# The line of operations

Operations are started in the order in which callers submitted them, whatever happens in between,
and as soon as one has ended the next one that waits is started.
-/
namespace Supervisor

/-- Does it tell nothing of the queue? -/
def Output.isAside : Output → Bool
  | .started _ _ | .finished _ _ => false
  | _ => true

/-- With the tickets that they get. -/
def numbered (ops : List Operation) : List (Ticket × Operation) := ops.zipIdx.map Prod.swap

theorem numbered_snoc (ops : List Operation) (op : Operation) :
    numbered (ops ++ [op]) = numbered ops ++ [(ops.length, op)] := by
  simp [numbered, List.zipIdx_append]

namespace Coordinator

theorem shift_isAside {old : Phase} {c : Coordinator} : ∀ m ∈ shift old c, m.output.isAside = true := by
  intro m hm
  simp only [shift] at hm
  split at hm
  · simp only [List.mem_singleton] at hm
    subst hm
    rfl
  · simp only [List.mem_cons, List.not_mem_nil, or_false] at hm
    rcases hm with rfl | rfl <;> rfl

theorem Purpose.next_ne_looking (p : Purpose) : p.next ≠ .looking := by
  cases p <;> simp [Purpose.next]

/-- All that a move can do to the queue. -/
theorem Move.queue {now : Nat} {c c' : Coordinator} {p p' : Point} {ms : List Moment}
    (hm : Move now c p ms c' p') :
    (∃ op, p = .looking ∧ p' = .begun op ∧ c.queue.start? = some (op, c'.queue) ∧
      ms = [⟨.started (c'.queue.running.getD 0) op, c'⟩]) ∨
    (p = .looking ∧ p' = .idle ∧ c.queue.start? = none ∧ c' = c ∧ ms = []) ∨
    (∃ ticket r, p ≠ .looking ∧ p' = .looking ∧ c'.queue = c.queue.release ∧
      ms = [⟨.finished ticket r, c'⟩]) ∨
    (p ≠ .looking ∧ p' ≠ .looking ∧ c'.queue = c.queue ∧ ∀ m ∈ ms, m.output.isAside = true) := by
  cases hm with
  | take hq => exact .inl ⟨_, rfl, rfl, hq, rfl⟩
  | rest hq => exact .inr (.inl ⟨rfl, rfl, hq, rfl, rfl⟩)
  | finish r hr => exact .inr (.inr (.inl ⟨_, r, by simp, rfl, rfl, rfl⟩))
  | gone p | stopped p =>
    exact .inr (.inr (.inr ⟨by simp, p.next_ne_looking, rfl, by simp [Output.isAside]⟩))
  | enter | close => exact .inr (.inr (.inr ⟨by simp, by simp, rfl, shift_isAside⟩))
  | succeed | fail =>
    refine .inr (.inr (.inr ⟨by simp, by simp, rfl, ?_⟩))
    intro m hm
    rcases List.mem_append.mp hm with hm | hm
    · exact shift_isAside m hm
    · rw [List.mem_singleton.mp hm]
      rfl
  | _ => exact .inr (.inr (.inr ⟨by simp, by simp, rfl, by simp [Output.isAside]⟩))

structure Lineup where
  submitted : List Operation := []
  started : List (Ticket × Operation) := []
  /-- The operation that waited first when another one ended just now. -/
  due : Option (Ticket × Operation) := none

def Lineup.note (g : Lineup) : Happening → Lineup
  | .heard _ _ (.submit op) => { g with submitted := g.submitted ++ [op] }
  | .did _ _ (.started ticket op) => { g with started := g.started ++ [(ticket, op)], due := none }
  | .did _ c (.finished _ _) => { g with due := c.queue.waiting.head? }
  | _ => g

/-- The operation that is due is started before anything else happens. -/
def lineups : Watch Lineup where
  start := {}
  note := Lineup.note
  law g e := ∀ ticket op, g.due = some (ticket, op) → ∃ now c, e = .did now c (.started ticket op)

namespace Lineup

structure InOrder (g : Lineup) (c : Coordinator) : Prop where
  order : g.started ++ c.queue.waiting = numbered g.submitted
  accepted : c.queue.accepted = g.submitted.length
  isOpen : c.queue.closed = false

def Holds (p : Point) (g : Lineup) (c : Coordinator) : Prop :=
  InOrder g c ∧ match p with
    | .looking => g.due = none ∨ g.due = c.queue.waiting.head?
    | _ => g.due = none

theorem Holds.undue {p : Point} {g : Lineup} {c : Coordinator} (h : Holds p g c)
    (hp : p ≠ .looking) : g.due = none := by
  cases p with
  | looking => exact (hp rfl).elim
  | _ => exact h.2

theorem holds_of_undue {p : Point} {g : Lineup} {c : Coordinator} (ho : InOrder g c)
    (hd : g.due = none) : Holds p g c := by
  cases p with
  | looking => exact ⟨ho, .inl hd⟩
  | _ => exact ⟨ho, hd⟩

theorem move_holds {now : Nat} {g : Lineup} {c c' : Coordinator} {p p' : Point} {ms : List Moment}
    (hs : p.Sound c) (hm : Move now c p ms c' p') (h : Holds p g c) :
    lineups.Passes now ms g fun g' => Holds p' g' c' := by
  rcases hm.queue with ⟨op, rfl, rfl, hq, rfl⟩ | ⟨rfl, rfl, hq, rfl, rfl⟩ |
    ⟨ticket, r, hp, rfl, hq, rfl⟩ | ⟨hp, -, hq, hms⟩
  · have hw := Dispatcher.waiting_start? hq
    refine ⟨?_, ⟨?_, ?_, ?_⟩, rfl⟩
    · intro ticket op' hd
      rcases h.2 with hn | hn
      · simp [hn] at hd
      · rw [hn, hw] at hd
        simp only [List.head?_cons, Option.some.injEq, Prod.mk.injEq] at hd
        exact ⟨now, c', by rw [hd.1, hd.2]⟩
    · have ho := h.1.order
      rw [hw] at ho
      simpa [lineups, Lineup.note] using ho
    · exact (Dispatcher.accepted_start? hq).trans h.1.accepted
    · exact (Dispatcher.closed_start? hq).trans h.1.isOpen
  · have hw : c'.queue.waiting = [] := Dispatcher.waiting_of_start?_none hs.2 hq
    refine ⟨h.1, ?_⟩
    rcases h.2 with hd | hd
    · exact hd
    · simpa [hw] using hd
  · refine ⟨?_, ⟨?_, ?_, ?_⟩, .inr rfl⟩
    · intro ticket op hd
      simp [h.undue hp] at hd
    · rw [hq, Dispatcher.waiting_release]
      exact h.1.order
    · rw [hq, Dispatcher.accepted_release]
      exact h.1.accepted
    · rw [hq, Dispatcher.closed_release]
      exact h.1.isOpen
  · have hd := h.undue hp
    refine Watch.passes_of_unnoted ?_ (holds_of_undue ⟨?_, ?_, ?_⟩ hd)
    · intro m hm
      refine ⟨fun ticket op hn => by simp [hd] at hn, ?_⟩
      have ha := hms m hm
      cases ho : m.output with
      | started | finished => simp [ho, Output.isAside] at ha
      | _ => rfl
    · rw [hq]
      exact h.1.order
    · rw [hq]
      exact h.1.accepted
    · rw [hq]
      exact h.1.isOpen

theorem InOrder.join {g : Lineup} {c : Coordinator} (h : InOrder g c) (op : Operation) :
    InOrder { g with submitted := g.submitted ++ [op] } (c.submit op).2 := by
  have hq : (c.submit op).2.queue = { c.queue with
      waiting := c.queue.waiting ++ [(c.queue.accepted, op)]
      accepted := c.queue.accepted + 1
      pending := c.queue.pending + 1 } := by
    simp [Coordinator.submit, Dispatcher.submit, h.isOpen]
  refine ⟨?_, ?_, ?_⟩
  · simp [hq, numbered_snoc, ← h.order, h.accepted]
  · simp [hq, h.accepted]
  · simp [hq, h.isOpen]

theorem point_ne_looking (c : Coordinator) : c.point ≠ .looking := by
  cases hs : c.stage <;> simp [point, hs]

theorem signal_holds {now : Nat} {g : Lineup} {c : Coordinator} {s : Signal}
    (h : Holds c.point g c) :
    lineups.law g (.heard now c s) ∧
      Holds (s.target c) (lineups.note g (.heard now c s)) (s.effect c) := by
  have hd := h.undue (point_ne_looking c)
  refine ⟨fun ticket op hn => by simp [hd] at hn, ?_⟩
  cases s with
  | submit op => exact holds_of_undue (h.1.join op) hd
  | _ => exact holds_of_undue ⟨h.1.order, h.1.accepted, h.1.isOpen⟩ hd

theorem run_holds {conduct : Conduct} {name toolName : String} {settings : Settings} {h : Story}
    {c : Coordinator} (hle : ∀ stage r, conduct stage r = true → stage.accepts r = true)
    (hr : Run conduct (fresh name toolName settings) h c) :
    lineups.Kept h ∧ c.point.Sound c ∧ Holds c.point (lineups.read h) c :=
  hr.upheld hle (fun _ _ h => signal_holds h) move_holds (sound_fresh name toolName settings)
    ⟨⟨rfl, rfl, rfl⟩, rfl⟩

end Lineup

section
variable {name toolName : String} {settings : Settings} {h : Story} {c : Coordinator}

/-- What was started and what still waits are the operations that were submitted, in order. -/
theorem Run.started_append_waiting (hr : Run Stage.accepts (fresh name toolName settings) h c) :
    (lineups.read h).started ++ c.queue.waiting = numbered (lineups.read h).submitted :=
  (Lineup.run_holds (fun _ _ hs => hs) hr).2.2.1.order

/-- The operation that waits first when another one ends is started before anything else. -/
theorem Run.next_started (hr : Run Stage.accepts (fresh name toolName settings) h c)
    {before after : Story} {now : Nat} {seen : Coordinator} {ticket next : Ticket}
    {result : Except Fault Answer} {op : Operation} {rest : List (Ticket × Operation)}
    (hh : h = before ++ .did now seen (.finished ticket result) :: after)
    (hw : seen.queue.waiting = (next, op) :: rest) :
    ∃ now' seen' after', after = .did now' seen' (.started next op) :: after' := by
  obtain ⟨hk, -, hc⟩ := Lineup.run_holds (fun _ _ hs => hs) hr
  have hd : (lineups.read (before ++ [.did now seen (.finished ticket result)])).due =
      some (next, op) := by
    simp [lineups, Lineup.note, hw]
  cases after with
  | nil =>
    subst hh
    have hn := hc.undue (Lineup.point_ne_looking c)
    rw [hd] at hn
    exact (Option.some_ne_none _ hn).elim
  | cons e after' =>
    have hs : h = (before ++ [.did now seen (.finished ticket result)]) ++ e :: after' := by
      simp [hh]
    obtain ⟨now', seen', rfl⟩ := hk _ e after' hs next op hd
    exact ⟨now', seen', after', rfl⟩

end

end Coordinator

end Supervisor
