import Supervisor.Proofs.Coordinator.RemainingCalls
import Supervisor.Proofs.Rehearsal.Actions
/-!
# The work that remains in a rehearsal

How much is left to do for the coordinators of a rehearsal and for those who have come to them. A
worker that runs gets on with its work, or there was nothing to do for it.
-/
namespace Supervisor

/-- How far a caller still has to go. -/
def Visit.toil (v : Visit) : Nat :=
  match v.stay with
  | .waiting => 2
  | .working _ => 1
  | .left _ => 0

namespace Rehearsal

/-- What is left to both coordinators. -/
def toil (r : Rehearsal) : Nat :=
  r.main.coordinator.toil + (r.companion.map fun p => p.coordinator.toil).getD 0

def visitToil (r : Rehearsal) : Nat := (r.visits.map Visit.toil).sum

/-- There is not more to do for anybody. -/
structure Lightens (r r' : Rehearsal) : Prop where
  clock : r'.clock = r.clock
  toil : r'.toil ≤ r.toil
  visitToil : r'.visitToil ≤ r.visitToil

/-- Nobody has been woken either, and no alarm has been set for now. -/
structure Rests (r r' : Rehearsal) : Prop extends Lightens r r' where
  due : (r'.due r'.clock).length ≤ (r.due r.clock).length
  runnable : r'.runnable = r.runnable

/-- Some caller has got on. -/
structure Advances (r r' : Rehearsal) : Prop extends Lightens r r' where
  less : r'.visitToil < r.visitToil

section
variable {r r' r'' : Rehearsal} {s : Seat} {p p' : Player} {n : Nat} {v : Visit}

theorem Lightens.trans (h : Lightens r r') (h' : Lightens r' r'') : Lightens r r'' where
  clock := h'.clock.trans h.clock
  toil := Nat.le_trans h'.toil h.toil
  visitToil := Nat.le_trans h'.visitToil h.visitToil

theorem Rests.trans (h : Rests r r') (h' : Rests r' r'') : Rests r r'' where
  toLightens := h.toLightens.trans h'.toLightens
  due := Nat.le_trans h'.due h.due
  runnable := h'.runnable.trans h.runnable

theorem Advances.trans (h : Advances r r') (h' : Lightens r' r'') : Advances r r'' :=
  ⟨h.toLightens.trans h', Nat.lt_of_le_of_lt h'.visitToil h.less⟩

theorem Advances.after (h' : Advances r' r'') (h : Lightens r r') : Advances r r'' :=
  ⟨h.trans h'.toLightens, Nat.lt_of_lt_of_le h'.less h.visitToil⟩

/-! ## Players -/

theorem toil_setPlayer (hp : r.player? s = some p) :
    (r.setPlayer s p').toil + p.coordinator.toil = r.toil + p'.coordinator.toil := by
  cases s with
  | main =>
    obtain rfl := Option.some.inj hp
    simp only [setPlayer, toil]
    omega
  | companion =>
    have hcompanion : r.companion = some p := hp
    simp only [setPlayer, toil, hcompanion, Option.map_some, Option.getD_some]
    omega

theorem toil_setPlayer_of_eq (hp : r.player? s = some p)
    (ht : p'.coordinator.toil = p.coordinator.toil) : (r.setPlayer s p').toil = r.toil := by
  have hset : (r.setPlayer s p').toil + p.coordinator.toil = r.toil + p'.coordinator.toil :=
    toil_setPlayer hp
  omega

theorem toil_modifyPlayer (r : Rehearsal) (s : Seat) {f : Player → Player}
    (hf : ∀ p, (f p).coordinator.toil = p.coordinator.toil) : (r.modifyPlayer s f).toil = r.toil := by
  unfold modifyPlayer
  cases hp : r.player? s with
  | none => rfl
  | some p => exact toil_setPlayer_of_eq hp (hf p)

@[simp] theorem toil_wake (r : Rehearsal) (t : Task) : (r.wake t).toil = r.toil := by
  unfold wake
  split <;> rfl

theorem toil_foldl_wake (r : Rehearsal) (ts : List (Visit × Nat)) :
    (ts.foldl (fun r (_, m) => r.wake (.visit m)) r).toil = r.toil := by
  induction ts generalizing r with
  | nil => rfl
  | cons t ts ih => exact (ih _).trans (toil_wake r _)

theorem toil_tell (r : Rehearsal) (s : Seat) (t : Ticket) (result : Except Fault Answer) :
    (r.tell s t result).toil = r.toil := by
  unfold tell
  simp only
  split
  · rw [toil_wake]
    rfl
  · rfl

theorem toil_absorb (r : Rehearsal) (s : Seat) (os : List Output) :
    (absorb s r os).1.toil = r.toil := by
  induction os generalizing r with
  | nil => rfl
  | cons o os ih =>
    cases o with
    | call x => rfl
    | started t op => exact ih r
    | notice x => exact ih (r.publish x)
    | phaseSet x => exact (ih _).trans (toil_foldl_wake r _)
    | finished t result => exact (ih _).trans (toil_tell r s t result)

/-- The call that a turn ends with is one of its outputs. -/
theorem toil_of_absorb {x : Call} {os : List Output} (h : (absorb s r os).2 = some x) :
    x.toil ≤ (os.map Output.toil).sum := by
  induction os generalizing r with
  | nil => cases h
  | cons o os ih =>
    rw [List.map_cons, List.sum_cons]
    cases o with
    | call y =>
      obtain rfl := Option.some.inj h
      exact Nat.le_add_right _ _
    | _ => exact Nat.le_trans (ih h) (Nat.le_add_left _ _)

theorem toil_submit_le (r : Rehearsal) (s : Seat) (op : Operation) :
    (r.submit s op).2.toil ≤ r.toil + (op.toil + 1) := by
  unfold submit
  cases hp : r.player? s with
  | none => exact Nat.le_add_right _ _
  | some p =>
    have hset : (r.setPlayer s { p with coordinator := (p.coordinator.submit op).2 }).toil +
        p.coordinator.toil = r.toil + (p.coordinator.submit op).2.toil := toil_setPlayer hp
    have hsubmit := Coordinator.toil_submit_le p.coordinator op
    have hle : (r.setPlayer s { p with coordinator := (p.coordinator.submit op).2 }).toil ≤
        r.toil + (op.toil + 1) := by omega
    simp only
    split
    · rwa [toil_wake]
    · exact hle

/-! ## What a worker does -/

theorem rests_of_eq (hclock : r'.clock = r.clock) (halarms : r'.alarms = r.alarms)
    (hvisits : r'.visits = r.visits) (hrunnable : r'.runnable = r.runnable) (htoil : r'.toil = r.toil) :
    Rests r r' where
  clock := hclock
  toil := Nat.le_of_eq htoil
  visitToil := Nat.le_of_eq (by rw [visitToil, visitToil, hvisits])
  due := Nat.le_of_eq (by rw [due, due, halarms, hclock])
  runnable := hrunnable

theorem rests_refl (r : Rehearsal) : Rests r r := rests_of_eq rfl rfl rfl rfl rfl

theorem rests_note (r : Rehearsal) (s : Seat) (a : Act) : Rests r (r.note s a) :=
  rests_of_eq rfl rfl rfl rfl rfl

theorem rests_setPlayer (hp : r.player? s = some p)
    (ht : p'.coordinator.toil = p.coordinator.toil) : Rests r (r.setPlayer s p') := by
  refine rests_of_eq ?_ ?_ ?_ ?_ (toil_setPlayer_of_eq hp ht)
  all_goals cases s <;> rfl

theorem rests_modifyPlayer (r : Rehearsal) (s : Seat) {f : Player → Player}
    (hf : ∀ p, (f p).coordinator.toil = p.coordinator.toil) : Rests r (r.modifyPlayer s f) := by
  unfold modifyPlayer
  cases hp : r.player? s with
  | none => exact rests_refl r
  | some p => exact rests_setPlayer hp (hf p)

theorem rests_serverDown (r : Rehearsal) (s : Seat) (id : ServerId) : Rests r (r.serverDown s id) :=
  rests_modifyPlayer r s fun _ => rfl

theorem rests_fulfil (r : Rehearsal) (s : Seat) (x : Promise) : Rests r (r.fulfil s x).1 := by
  cases x with
  | reply x => exact rests_refl r
  | noted a x => exact rests_note r s a
  | launched script =>
    have hissued (k : Nat) : Rests r { r with issued := k } := rests_of_eq rfl rfl rfl rfl rfl
    exact ((hissued _).trans (rests_note _ s _)).trans (rests_modifyPlayer _ s fun _ => rfl)

theorem toil_arrange (r : Rehearsal) (s : Seat) (x : Option (Nat × Promise)) :
    (r.arrange s x).1.toil = r.toil := by
  unfold arrange
  split <;> rfl

theorem toil_delegate_le (r : Rehearsal) (s : Seat) (op : Operation) :
    (r.delegate s op).1.toil ≤ r.toil + (op.toil + 1) := by
  have hsubmit := toil_submit_le r .companion op
  unfold delegate
  split
  · next t r' he =>
    rw [he] at hsubmit
    have htoil := toil_modifyPlayer r' s (f := fun p => { p with errand := some t }) fun _ => rfl
    exact Nat.le_trans (Nat.le_of_eq htoil) hsubmit
  · next r' he =>
    rwa [he] at hsubmit

/-- What a call adds to the toil of a companion has been reckoned with. -/
theorem toil_perform_le (hp : r.player? s = some p) (x : Call) :
    (r.perform s p x).1.toil ≤ r.toil + x.toil := by
  cases x with
  | stopServer id =>
    simp only [perform, toil_arrange]
    exact ((rests_note r s _).trans (rests_serverDown _ s id)).toil
  | clearCaches e =>
    simp only [perform]
    split
    · exact Nat.le_refl _
    · rw [toil_arrange]
      exact Nat.le_refl _
  | prepareEnvironment e =>
    simp only [perform]
    split
    · exact Nat.le_refl _
    · rw [toil_arrange]
      exact Nat.le_refl _
  | launch spec =>
    simp only [perform, toil_arrange]
    have hnoted : (r.note s (.launch spec.settings.command)).player? s = some p := by
      cases s <;> exact hp
    exact Nat.le_of_eq (toil_setPlayer_of_eq hnoted rfl)
  | awaitReady id limit =>
    simp only [perform, toil_arrange]
    exact Nat.le_refl _
  | prepareDependent d =>
    simp only [perform]
    split
    · exact Nat.le_add_right _ _
    · rw [toil_arrange]
      exact Nat.le_add_right _ _
    · have hdelegate := toil_delegate_le r s .yieldCaches
      have hyield : Operation.yieldCaches.toil + 1 ≤ (Call.prepareDependent d).toil := by
        simp [Operation.toil, Call.toil, errandToil]
      omega
  | finishDependent d =>
    simp only [perform]
    split
    · exact Nat.le_add_right _ _
    · rw [toil_arrange]
      exact Nat.le_add_right _ _
    · exact toil_delegate_le r s (.restart .linked)
  | removeDirectory path => exact Nat.le_refl _

open Coordinator (Turn)

theorem toil_setPlayer_le (hp : r.player? s = some p) {t : Turn} (ht : t.Eases p.coordinator) :
    (r.setPlayer s { p with coordinator := t.state }).toil + (t.outputs.map Output.toil).sum ≤
      r.toil := by
  have hset : (r.setPlayer s { p with coordinator := t.state }).toil + p.coordinator.toil =
      r.toil + t.state.toil := toil_setPlayer hp
  have hle := ht.toil_le
  omega

theorem toil_takeTurns_succ_le {k : Nat}
    (hrest : ∀ {r : Rehearsal} {p : Player} {t : Turn}, r.player? s = some p → r.Sound →
      t.Follows p.coordinator → t.Eases p.coordinator → (takeTurns s k r t).toil ≤ r.toil)
    (hp : r.player? s = some p) {t : Turn}
    (hs : (r.setPlayer s { p with coordinator := t.state }).Sound) :
    (takeTurns s (k + 1) r t).toil ≤
      (r.setPlayer s { p with coordinator := t.state }).toil + (t.outputs.map Output.toil).sum := by
  have hset : (r.modifyPlayer s fun p => { p with coordinator := t.state }) =
      r.setPlayer s { p with coordinator := t.state } := by
    simp only [modifyPlayer, hp]
  simp only [takeTurns, hset]
  generalize r.setPlayer s { p with coordinator := t.state } = r₀ at hs ⊢
  -- What the call gives a companion to do was reckoned among the outputs of the turn.
  have habsorb := toil_absorb r₀ s t.outputs
  have hsound := (spares_absorb 0 r₀ s t.outputs).sound hs
  split
  · next r₁ he =>
    simp only [he] at habsorb
    omega
  · next r₁ x he =>
    have hcall := toil_of_absorb (x := x) (by rw [he])
    simp only [he] at habsorb hsound
    cases hp₁ : r₁.player? s with
    | none =>
      simp only
      omega
    | some p₁ =>
      have hperform := toil_perform_le hp₁ x
      have hsound₁ := (spares_perform 0 hp₁ x).sound hsound
      simp only
      split
      · next r₂ he₂ =>
        simp only [he₂] at hperform
        omega
      · next r₂ promise he₂ =>
        simp only [he₂] at hperform hsound₁
        have hfulfil := (rests_fulfil r₂ s promise).toil
        have hsound₂ := (spares_fulfil 0 r₂ s promise).sound hsound₁
        cases hp₃ : (r₂.fulfil s promise).1.player? s with
        | none =>
          simp only
          omega
        | some p₃ =>
          have hc := hsound₂ s p₃ hp₃
          have hreply := hrest hp₃ hsound₂
            (Coordinator.reply_follows hc _ (r₂.fulfil s promise).2)
            (Coordinator.reply_eases hc (r₂.fulfil s promise).1.clock (r₂.fulfil s promise).2)
          simp only
          omega

/-- However many turns a coordinator takes, it does not get more to do. -/
theorem toil_takeTurns_le (k : Nat) (hp : r.player? s = some p) (hs : r.Sound) {t : Turn}
    (hfollows : t.Follows p.coordinator) (heases : t.Eases p.coordinator) :
    (takeTurns s k r t).toil ≤ r.toil := by
  induction k generalizing r p t with
  | zero => exact Nat.le_refl _
  | succ k ih =>
    have hsound : (r.setPlayer s { p with coordinator := t.state }).Sound :=
      (leaves_setPlayer 0 hp fun _ => hfollows.sound).sound hs
    exact Nat.le_trans (toil_takeTurns_succ_le (fun hp hs => ih hp hs) hp hsound)
      (toil_setPlayer_le hp heases)

/-- A worker that runs gets on with its work, or there was nothing to do for it. -/
theorem takeTurns_eases (k : Nat) (hp : r.player? s = some p) (hs : r.Sound) {t : Turn}
    (hfollows : t.Follows p.coordinator) (heases : t.Eases p.coordinator) :
    Rests r (takeTurns s (k + 1) r t) ∨ (takeTurns s (k + 1) r t).toil < r.toil := by
  cases heases with
  | still hstate houtputs =>
    have hset : (r.modifyPlayer s fun p => { p with coordinator := t.state }) =
        r.setPlayer s { p with coordinator := t.state } := by
      simp only [modifyPlayer, hp]
    have hturn : takeTurns s (k + 1) r t = r.setPlayer s { p with coordinator := t.state } := by
      simp only [takeTurns, hset, houtputs, absorb]
    rw [hturn]
    exact .inl (rests_setPlayer hp (by rw [hstate]))
  | busy htoil =>
    have hsound : (r.setPlayer s { p with coordinator := t.state }).Sound :=
      (leaves_setPlayer 0 hp fun _ => hfollows.sound).sound hs
    have hset : (r.setPlayer s { p with coordinator := t.state }).toil + p.coordinator.toil =
        r.toil + t.state.toil := toil_setPlayer hp
    have hle := toil_takeTurns_succ_le (fun hp hs => toil_takeTurns_le k hp hs) hp hsound
    exact .inr (by omega)

theorem turnBound_eq (p : Player) : turnBound p = 10 * p.coordinator.queue.held + 9 + 1 := by
  rw [turnBound, Nat.mul_add]

theorem runWorker_eases (hs : r.Sound) (s : Seat) :
    Rests r (r.runWorker s) ∨ (r.runWorker s).toil < r.toil := by
  unfold runWorker
  cases hp : r.player? s with
  | none => exact .inl (rests_refl r)
  | some p =>
    simp only [turnBound_eq]
    split
    · exact takeTurns_eases _ hp hs (Coordinator.wake_follows (hs s p hp) _)
        (Coordinator.wake_eases (hs s p hp) _)
    · next promise hin =>
      have hset : (r.setPlayer s { p with incoming := none }).player? s =
          some { p with incoming := none } := by
        rw [player?_setPlayer, if_pos rfl]
      have hread : Rests r (r.setPlayer s { p with incoming := none }) := rests_setPlayer hp rfl
      have hrests := hread.trans (rests_fulfil _ s promise)
      have hleaves : Leaves 0 r (r.setPlayer s { p with incoming := none }) :=
        leaves_setPlayer 0 hp fun hc => hc
      have hsound := (spares_fulfil 0 _ s promise).sound (hleaves.sound hs)
      obtain ⟨p', hp', hcoordinator⟩ := coordinator_fulfil hset promise
      have hfollows (now : Nat) (x : Reply) :
          (p.coordinator.reply now x).Follows p'.coordinator := by
        rw [hcoordinator]
        exact Coordinator.reply_follows (hs s p hp) now x
      have heases (now : Nat) (x : Reply) : (p.coordinator.reply now x).Eases p'.coordinator := by
        rw [hcoordinator]
        exact Coordinator.reply_eases (hs s p hp) now x
      rcases takeTurns_eases _ hp' hsound (hfollows _ _) (heases _ _) with hturns | hturns
      · exact .inl (hrests.trans hturns)
      · exact .inr (Nat.lt_of_lt_of_le hturns hrests.toil)

end

end Rehearsal

end Supervisor
