import Supervisor.Proofs.Coordinator.Moves
/-!
# Changes that can be heard

Whoever waits for a change of a coordinator is woken when the phase is set. In every turn it is set
before the first call, if anything changes that makes a command wait or not; so nobody who waits
misses a change while the coordinator waits for a reply.
-/
namespace Supervisor.Coordinator

/-- What makes a command wait, or not wait any more. -/
structure Outlook where
  phase : Phase
  version : Nat
  trigger : Option Trigger
deriving DecidableEq

def outlook (c : Coordinator) : Outlook := ⟨c.phase, c.version, c.trigger⟩

/-- Is the phase set before the first call? -/
def announces : List Output → Bool
  | [] => false
  | .call _ :: _ => false
  | .phaseSet _ :: _ => true
  | _ :: rest => announces rest

/-- No call is among these outputs. -/
def Callless (os : List Output) : Prop := ∀ x, Output.call x ∉ os

theorem announces_append_left {os : List Output} (h : announces os = true) (os' : List Output) :
    announces (os ++ os') = true := by
  induction os with
  | nil => simp [announces] at h
  | cons o os ih => cases o <;> simp_all [announces]

theorem announces_append_right {os os' : List Output} (hc : Callless os)
    (h : announces os' = true) : announces (os ++ os') = true := by
  induction os with
  | nil => exact h
  | cons o os ih =>
    have hrest : announces (os ++ os') = true := ih fun x hx => hc x (List.mem_cons_of_mem _ hx)
    cases o with
    | call x => exact (hc x List.mem_cons_self).elim
    | _ => simp [announces, hrest]

section
variable {now : Nat} {c c' : Coordinator} {p p' : Point} {ms : List Moment}

theorem announces_shift (old : Phase) (c : Coordinator) :
    announces ((shift old c).map Moment.output) = true := rfl

theorem callless_shift (old : Phase) (c : Coordinator) :
    Callless ((shift old c).map Moment.output) := by
  intro x hx
  simp only [shift, List.map_cons, List.mem_cons, List.mem_map] at hx
  rcases hx with hx | ⟨m, hm, hx⟩
  · cases hx
  · split at hm
    · cases hm
    · obtain rfl := List.mem_singleton.mp hm
      cases hx

theorem callless_report {os : List Output} (h : Callless os) (n : Notice) :
    Callless (os ++ [.notice n]) := by
  intro x hx
  rcases List.mem_append.mp hx with hx | hx
  · exact h x hx
  · cases List.mem_singleton.mp hx

/-- A move that ends a turn with a call changes nothing that commands look at; any other one does so
only by setting the phase. -/
theorem Move.audible (hm : Move now c p ms c' p') :
    (Callless (ms.map Moment.output) ∧
      (c'.outlook = c.outlook ∨ announces (ms.map Moment.output) = true)) ∨
    c'.outlook = c.outlook ∧ ∃ stage, p' = .waiting stage := by
  cases hm with
  | enter | close => exact .inl ⟨callless_shift _ _, .inr (announces_shift _ _)⟩
  | succeed | fail =>
    rw [List.map_append]
    exact .inl ⟨callless_report (callless_shift _ _) _,
      .inr (announces_append_left (announces_shift _ _) _)⟩
  | stopDependent | drop | clearCaches | prepareEnvironment | launch | awaitReady | stopUnready
  | resumeDependent | removeCache => exact .inr ⟨rfl, _, rfl⟩
  | _ => exact .inl ⟨by simp [Callless], .inl rfl⟩

/-- An operation that waits makes no move by itself, nor does a coordinator that has none. -/
theorem Trail.of_still (h : Trail now c p ms c' p') (hp : p.isMoving = false) :
    c' = c ∧ ms = [] := by
  cases h with
  | refl => exact ⟨rfl, rfl⟩
  | move hm _ => cases hm <;> cases hp

theorem Trail.audible (h : Trail now c p ms c' p') :
    c'.outlook = c.outlook ∨ announces (ms.map Moment.output) = true := by
  induction h with
  | refl => exact .inl rfl
  | move hm ht ih =>
    rw [List.map_append]
    rcases hm.audible with ⟨hcallless, hsame | hannounced⟩ | ⟨hsame, stage, rfl⟩
    · rcases ih with hrest | hrest
      · exact .inl (hrest.trans hsame)
      · exact .inr (announces_append_right hcallless hrest)
    · exact .inr (announces_append_left hannounced _)
    · obtain ⟨rfl, -⟩ := ht.of_still rfl
      exact .inl hsame

end

/-! ## Turns -/

/-- A turn of a coordinator leaves it at a point where it can take the next one, and any change in it
can be heard. -/
structure Turn.Follows (t : Turn) (c : Coordinator) : Prop where
  sound : t.state.point.Sound t.state
  audible : t.state.outlook = c.outlook ∨ announces t.outputs = true

theorem Turn.Ends.follows {now : Nat} {c : Coordinator} {p : Point} {t : Turn}
    (h : Turn.Ends ⟨now, c, []⟩ p t) (hs : p.Sound c) : t.Follows c := by
  obtain ⟨-, ms, hms, ht⟩ := h hs
  refine ⟨ht.sound hs, ?_⟩
  have houtputs : t.outputs = ms.map Moment.output := by
    rw [outputs, hms]
    rfl
  rw [houtputs]
  exact ht.audible

theorem wake_follows {c : Coordinator} (hc : c.point.Sound c) (now : Nat) :
    (c.wake now).Follows c :=
  (hear_ends c now (s := .wake) trivial).follows (Signal.sound (s := .wake) trivial hc)

/-- Where a reply leads an operation that waits. -/
inductive LeadsTo (stage : Stage) : Point → Prop
  | answered (r : Reply) : LeadsTo stage (.answered stage r)
  | finish (result : Except Fault Answer) : LeadsTo stage (.finish result)
  | close (result : Except Fault Answer) : LeadsTo stage (.close result)

theorem LeadsTo.sound {stage : Stage} {p : Point} {c : Coordinator} (h : LeadsTo stage p)
    (hr : c.queue.running.isSome) : p.Sound c := by
  cases h <;> exact hr

/-- Also a reply that does not answer the call leads to moves, or it is passed over. -/
theorem Turn.resume_goes (t : Turn) (stage : Stage) (r : Reply) :
    t.resume stage r = t ∨ ∃ p : Point, LeadsTo stage p ∧ t.Settles p (t.resume stage r) := by
  by_cases hr : stage.accepts r = true
  · exact .inr ⟨_, .answered r, resume_settles t hr⟩
  cases stage with
  | awaitingReady s id =>
    cases r with
    | overdue =>
      exact .inr ⟨_, .answered .overdue,
        .silent (.overdue s id) (.last (.stopUnready s id _) rfl rfl)⟩
    | done | fault | panicked => simp [Stage.accepts] at hr
    | _ => exact .inl rfl
  | resumingDependent s result =>
    cases r with
    | flag b => exact .inr ⟨_, .finish result, finish_settles t result⟩
    | done | fault | panicked => simp [Stage.accepts] at hr
    | _ => exact .inl rfl
  | removingCache wasActive => exact .inr ⟨_, .close _, close_settles t _⟩
  | _ =>
    cases r with
    | done | flag | environment | server | fault | panicked | overdue =>
      first
      | exact .inl rfl
      | simp [Stage.accepts] at hr

theorem reply_follows {c : Coordinator} (hc : c.point.Sound c) (now : Nat) (r : Reply) :
    (c.reply now r).Follows c := by
  cases hs : c.stage with
  | none =>
    simp only [reply, hs]
    exact ⟨hc, .inl rfl⟩
  | some stage =>
    have hrunning : c.queue.running.isSome := by
      simp only [point, hs] at hc
      exact hc.2
    simp only [reply, hs]
    rcases Turn.resume_goes ⟨now, c, []⟩ stage r with hstays | ⟨p, hp, hsettles⟩
    · rw [hstays, proceed_of_running hrunning]
      exact ⟨hc, .inl rfl⟩
    · exact (hsettles.ends (Turn.proceed_ends _ _ (Nat.le_refl _))).follows (hp.sound hrunning)

end Supervisor.Coordinator
