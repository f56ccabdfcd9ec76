import Mathlib.Algebra.GroupWithZero.Nat
import Supervisor.Proofs.Coordinator.Audible
/-!
# The calls that remain

An operation makes a bounded number of calls, and what it asks of a companion takes a bounded number
of calls too. So a turn in which a coordinator does anything leaves it with less to do.
-/
namespace Supervisor

/-! ## Toil

How many calls there may be, those of a companion included. -/

/-- More than it takes a companion to do what it is asked for. -/
def errandToil : Nat := 7

/-- What a call makes a companion do. -/
def Call.toil : Call → Nat
  | .prepareDependent _ | .finishDependent _ => errandToil
  | _ => 0

def Output.toil : Output → Nat
  | .call x => x.toil
  | _ => 0

/-- What it takes to start the dependent again at the end. -/
def Sequence.toil (s : Sequence) : Nat :=
  if s.resume && s.dependent.isSome then errandToil + 1 else 0

def Trigger.toil (t : Trigger) : Nat := if t.clearsCaches then 2 * errandToil + 8 else 6

def Operation.toil : Operation → Nat
  | .activate | .configure _ => 6
  | .restart t => t.toil
  | .stop => 1
  | .yieldCaches => 2

def Stage.toil : Stage → Nat
  | .stoppingDependent _ => errandToil + 8
  | .stoppingOld s _ _ => s.toil + 6
  | .clearing s => s.toil + 5
  | .preparing s => s.toil + 4
  | .launching s => s.toil + 3
  | .awaitingReady s _ => s.toil + 2
  | .stoppingUnready s _ _ => s.toil + 1
  | .yielding _ _ _ => 2
  | .resumingDependent _ _ | .shuttingDown _ _ | .removingCache _ => 1

namespace Coordinator

def Purpose.toil : Purpose → Nat
  | .sequence s => s.toil + 6
  | .shutdown => 1
  | .yielding _ => 2

def Point.toil : Point → Nat
  | .idle | .looking | .close _ | .finish _ => 0
  | .begun op => op.toil
  | .entering t _ => t.toil
  | .entered s => if s.trigger.clearsCaches then 2 * errandToil + 8 else s.toil + 6
  | .dropping p => p.toil
  | .clear s => s.toil + 5
  | .prepare s => s.toil + 4
  | .launch s _ => s.toil + 3
  | .awaitReady s _ => s.toil + 2
  | .stopUnready s _ _ => s.toil + 1
  | .succeed s _ | .fail s _ | .leave s _ => s.toil
  | .clearOwnCache _ => 1
  | .waiting stage => stage.toil
  | .answered stage _ => stage.toil - 1

/-- Each operation that waits takes one more, to be taken from the queue. -/
def queueToil (c : Coordinator) : Nat := (c.queue.waiting.map fun x => x.2.toil + 1).sum

def toilAt (c : Coordinator) (p : Point) : Nat := c.queueToil + p.toil

def toil (c : Coordinator) : Nat := c.toilAt c.point

section
variable {now : Nat} {c c' : Coordinator} {p p' : Point} {ms : List Moment}

theorem Sequence.toil_le (s : Sequence) : s.toil ≤ errandToil + 1 := by
  unfold Sequence.toil
  split <;> omega

@[simp] theorem toil_stage (p : Purpose) (id : ServerId) (since : Nat) :
    (p.stage id since).toil = p.toil := by
  cases p <;> rfl

theorem toil_next (p : Purpose) : p.next.toil + 1 ≤ p.toil := by
  cases p <;> simp [Purpose.next, Purpose.toil, Point.toil]

theorem toil_pos (stage : Stage) : 0 < stage.toil := by
  cases stage <;> simp [Stage.toil]

theorem toil_guarding {stage : Stage} {s : Sequence} (h : stage.guarding? = some s) :
    s.toil + 1 ≤ stage.toil := by
  cases stage with
  | stoppingOld | clearing | preparing | launching | awaitingReady | stoppingUnready =>
    obtain rfl := Option.some.inj h
    simp [Stage.toil]
  | _ => cases h

theorem toil_shift (old : Phase) (c : Coordinator) :
    (((shift old c).map Moment.output).map Output.toil).sum = 0 := by
  unfold shift
  split <;> rfl

theorem toilAt_le {k : Nat} (hq : c'.queue = c.queue) (hp : p'.toil + k ≤ p.toil) :
    c'.toilAt p' + k ≤ c.toilAt p := by
  simp only [toilAt, queueToil, hq]
  omega

theorem toil_take {op : Operation} {queue : Dispatcher Operation}
    (hq : c.queue.start? = some (op, queue)) :
    toilAt { c with queue } (.begun op) + 1 ≤ c.toilAt .looking := by
  simp only [toilAt, queueToil, Dispatcher.waiting_start? hq, List.map_cons, List.sum_cons, Point.toil]
  omega

/-- No move adds to what is left to do. -/
theorem Move.toil_le (hm : Move now c p ms c' p') :
    c'.toilAt p' + ((ms.map Moment.output).map Output.toil).sum ≤ c.toilAt p := by
  cases hm with
  | take hq => exact Nat.le_of_succ_le (toil_take hq)
  | finish result hr => simp [toilAt, queueToil, released, Point.toil, Output.toil]
  | enter trigger answer =>
    rw [toil_shift]
    exact toilAt_le rfl (Nat.le_refl _)
  | close result =>
    rw [toil_shift]
    exact toilAt_le rfl (Nat.le_refl _)
  | succeed s | fail s =>
    rw [List.map_append, List.map_append, List.sum_append, toil_shift]
    exact toilAt_le rfl (Nat.le_refl _)
  | stopDependent ht hd =>
    refine toilAt_le rfl ?_
    simp [Point.toil, Stage.toil, Output.toil, Call.toil, ht, errandToil]
  | @spareDependent s hd =>
    refine toilAt_le rfl ?_
    have hs := Sequence.toil_le s
    simp only [Point.toil, Purpose.toil]
    split
    · simp
      omega
    · simp
  | resumeDependent result hr hd =>
    refine toilAt_le rfl ?_
    simp [Point.toil, Stage.toil, Output.toil, Call.toil, Sequence.toil, hr, hd, errandToil]
  | drop p hh =>
    refine toilAt_le rfl ?_
    simp [Point.toil, Output.toil, Call.toil]
  | gone p => exact toilAt_le rfl (Nat.le_of_succ_le (toil_next p))
  | @stopped r o p id since hr =>
    refine toilAt_le rfl ?_
    have hp := toil_next p
    have ha : (Point.answered (p.stage id since) r).toil = p.toil - 1 := by simp [Point.toil]
    have ho : Output.toil (.notice (stopNotice id (now - since) o)) = 0 := rfl
    simp only [List.map_cons, List.map_nil, List.sum_cons, List.sum_nil, ha, ho]
    omega
  | dependentStopped s b =>
    refine toilAt_le rfl ?_
    have hs := Sequence.toil_le { s with resume := b }
    simp [Point.toil, Purpose.toil, Stage.toil]
    omega
  | dependentFailed s =>
    refine toilAt_le rfl ?_
    have hs := Sequence.toil_le s
    simp [Point.toil, Purpose.toil, Stage.toil]
    omega
  | callFails f hs =>
    refine toilAt_le rfl ?_
    rcases hs with rfl | rfl | rfl <;> simp [Point.toil, Stage.toil]
  | sequencePanics payload hs =>
    refine toilAt_le rfl ?_
    have hs := toil_guarding hs
    simp [Point.toil]
    omega
  | operationPanics payload hs => exact toilAt_le rfl (Nat.zero_le _)
  | _ =>
    refine toilAt_le rfl ?_
    simp [Point.toil, Operation.toil, Trigger.toil, Trigger.clearsCaches, Purpose.toil, Stage.toil,
      Output.toil, Call.toil]

theorem Trail.toil_le (h : Trail now c p ms c' p') :
    c'.toilAt p' + ((ms.map Moment.output).map Output.toil).sum ≤ c.toilAt p := by
  induction h with
  | refl => exact Nat.le_refl _
  | move hm _ ih =>
    have hmove := hm.toil_le
    rw [List.map_append, List.map_append, List.sum_append]
    omega

theorem LeadsTo.toil_lt {stage : Stage} (h : LeadsTo stage p) : p.toil < stage.toil := by
  have hpos := toil_pos stage
  cases h with
  | answered => exact Nat.sub_lt hpos Nat.one_pos
  | finish | close => exact hpos

/-- A turn of a coordinator in which nothing happens, or which leaves it with less to do. -/
inductive Turn.Eases (t : Turn) (c : Coordinator) : Prop
  | still (hstate : t.state = c) (houtputs : t.outputs = [])
  | busy (htoil : t.state.toil + (t.outputs.map Output.toil).sum < c.toil)

theorem Turn.Eases.toil_le {t : Turn} (h : t.Eases c) :
    t.state.toil + (t.outputs.map Output.toil).sum ≤ c.toil := by
  cases h with
  | still hstate houtputs => simp [hstate, houtputs]
  | busy htoil => exact Nat.le_of_lt htoil

/-- Moves from a point at which less is left to do leave less to do. -/
theorem Turn.Ends.eases {t : Turn} (h : Turn.Ends ⟨now, c, []⟩ p t) (hs : p.Sound c)
    (hp : p.toil < c.point.toil) : t.Eases c := by
  obtain ⟨-, ms, hms, ht⟩ := h hs
  have houtputs : t.outputs = ms.map Moment.output := by
    rw [outputs, hms]
    rfl
  have htoil := ht.toil_le
  rw [← houtputs] at htoil
  refine .busy ?_
  simp only [toil, toilAt] at htoil ⊢
  omega

/-- Whoever is woken while an operation waits, or while there is none, does nothing; else one is taken
from the queue. -/
theorem wake_eases {c : Coordinator} (hc : c.point.Sound c) (now : Nat) : (c.wake now).Eases c := by
  have hsound : c.halt.Sound c := at_halt (P := fun p => p.Sound c) hc id
  have hends : Turn.Ends ⟨now, c, []⟩ c.halt (c.wake now) := Turn.proceed_ends _ _ (Nat.le_refl _)
  obtain ⟨-, ms, hms, ht⟩ := hends hsound
  have houtputs : (c.wake now).outputs = ms.map Moment.output := by
    rw [Turn.outputs, hms]
    rfl
  cases hs : c.stage with
  | some stage =>
    simp only [halt, hs] at ht
    obtain ⟨hstate, rfl⟩ := ht.of_still rfl
    exact .still hstate houtputs
  | none =>
    simp only [halt, hs] at ht
    obtain ⟨c₁, p₁, ms₁, ms₂, hm, hrest, rfl⟩ := ht.begins rfl
    cases hm with
    | rest hq =>
      obtain ⟨hstate, rfl⟩ := hrest.of_still rfl
      exact .still hstate houtputs
    | take hq =>
      have htaken := toil_take hq
      have hpoint : c.point = .idle := by simp only [point, hs]
      have hleft := hrest.toil_le
      refine .busy ?_
      rw [houtputs, List.map_append, List.map_append, List.sum_append, toil, toil, hpoint]
      simp only [List.map_cons, List.map_nil, List.sum_cons, List.sum_nil, Output.toil]
      simp only [toilAt, Point.toil] at htaken hleft ⊢
      omega

theorem reply_eases {c : Coordinator} (hc : c.point.Sound c) (now : Nat) (r : Reply) :
    (c.reply now r).Eases c := by
  cases hs : c.stage with
  | none =>
    simp only [reply, hs]
    exact .still rfl rfl
  | some stage =>
    have hrunning : c.queue.running.isSome := by
      simp only [point, hs] at hc
      exact hc.2
    simp only [reply, hs]
    rcases Turn.resume_goes ⟨now, c, []⟩ stage r with hstays | ⟨p, hp, hsettles⟩
    · rw [hstays, proceed_of_running hrunning]
      exact .still rfl rfl
    · refine (hsettles.ends (Turn.proceed_ends _ _ (Nat.le_refl _))).eases (hp.sound hrunning) ?_
      simpa only [point, hs, Point.toil] using hp.toil_lt
theorem queueToil_submit_le (c : Coordinator) (op : Operation) :
    (c.submit op).2.queueToil ≤ c.queueToil + (op.toil + 1) := by
  simp only [queueToil, submit, Dispatcher.submit]
  split
  · exact Nat.le_add_right _ _
  · simp

theorem toil_submit_le (c : Coordinator) (op : Operation) :
    (c.submit op).2.toil ≤ c.toil + (op.toil + 1) := by
  have hqueue := queueToil_submit_le c op
  have hpoint : (c.submit op).2.point = c.point := rfl
  rw [toil, toil, toilAt, toilAt, hpoint]
  omega

end

end Coordinator

end Supervisor
