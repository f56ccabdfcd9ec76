import Supervisor.Proofs.Coordinator.Bracketing
import Supervisor.Proofs.Coordinator.Progress
import Supervisor.Proofs.Coordinator.YieldedCoordinator
/-!
# A coordinator and its companion

A coordinator can be the dependent of another one, which is the main coordinator then. What that one
asks of its dependent is an operation of the companion, and it waits in the companion's queue with the
operations of other callers. So nothing but these operations decides whether the companion stays down
until the caches have been cleared.
-/
namespace Supervisor

/-- What the companion has to do for the main coordinator that waits there. -/
def Stage.errand? : Stage → Option Operation
  | .stoppingDependent _ => some .yieldCaches
  | .resumingDependent _ _ => some (.restart .linked)
  | _ => none

namespace Coordinator

structure Pair where
  main : Coordinator
  companion : Coordinator
  /-- The operation of the companion that the main coordinator waits for. -/
  errand : Option Ticket := none

def Ended (h : Story) (ticket : Ticket) (result : Except Fault Answer) : Prop :=
  ∃ now seen, .did now seen (.finished ticket result) ∈ h

/-- The story after a signal. -/
def onward (h : Story) (c : Coordinator) (now : Nat) (s : Signal) : Story :=
  (c.hear now s).since (h ++ [.heard now c s])

/-- A run of a main coordinator and its companion, with a story of each. They hear signals in any
order, but all that the dependent answers comes from the companion. -/
inductive PairRun (m₀ d₀ : Coordinator) : Story → Story → Pair → Prop
  | start : PairRun m₀ d₀ [] [] ⟨m₀, d₀, none⟩
  | main {hm hd : Story} {p : Pair} (now : Nat) (s : Signal) (hr : PairRun m₀ d₀ hm hd p)
      (hs : s.Fits (fun stage r => stage.accepts r && !stage.asksDependent) p.main) :
      PairRun m₀ d₀ (onward hm p.main now s) hd { p with main := (p.main.hear now s).state }
  | companion {hm hd : Story} {p : Pair} (now : Nat) (s : Signal) (hr : PairRun m₀ d₀ hm hd p)
      (hs : s.Fits serversReturn p.companion) :
      PairRun m₀ d₀ hm (onward hd p.companion now s)
        { p with companion := (p.companion.hear now s).state }
  /-- The call to the dependent reaches the companion. -/
  | ask {hm hd : Story} {p : Pair} {stage : Stage} {op : Operation} (now : Nat)
      (hr : PairRun m₀ d₀ hm hd p) (hstage : p.main.stage = some stage)
      (hop : stage.errand? = some op) (he : p.errand = none) :
      PairRun m₀ d₀ hm (onward hd p.companion now (.submit op))
        { p with companion := (p.companion.submit op).2, errand := (p.companion.submit op).1 }
  /-- The result of the companion reaches the main coordinator. -/
  | answer {hm hd : Story} {p : Pair} {ticket : Ticket} {result : Except Fault Answer} (now : Nat)
      (hr : PairRun m₀ d₀ hm hd p) (he : p.errand = some ticket) (hf : Ended hd ticket result)
      (hs : (Signal.reply (.ofResult result)).Fits Stage.accepts p.main) :
      PairRun m₀ d₀ (onward hm p.main now (.reply (.ofResult result))) hd
        { p with main := (p.main.hear now (.reply (.ofResult result))).state, errand := none }

/-- The dependent has answered, and the caches are not cleared yet. -/
def Pair.InWindow (p : Pair) (hd : Story) : Prop :=
  match p.main.stage with
  | some (.stoppingDependent _) => ∃ ticket result, p.errand = some ticket ∧ Ended hd ticket result
  | some (.stoppingOld s _ _) | some (.clearing s) => s.dependent.isSome
  | _ => False

/-! ## What binds the two -/

structure Linked (m₀ d₀ : Coordinator) (hm hd : Story) (p : Pair) : Prop where
  main : Run dependentReturns m₀ hm p.main
  companion : Run serversReturn d₀ hd p.companion
  errand : ∀ ticket, p.errand = some ticket → ∃ stage op, p.main.stage = some stage ∧
    stage.errand? = some op ∧ (ticket, op) ∈ numbered (lineups.read hd).submitted
  answered : (brackets.read hm).answered ≠ [] → (slumbers.read hd).hasYielded = true

theorem Ended.append {h : Story} {ticket : Ticket} {result : Except Fault Answer}
    (he : Ended h ticket result) (h' : Story) : Ended (h ++ h') ticket result := by
  obtain ⟨now, seen, hm⟩ := he
  exact ⟨now, seen, List.mem_append_left _ hm⟩

theorem exists_onward (h : Story) (c : Coordinator) (now : Nat) (s : Signal) :
    ∃ h', onward h c now s = h ++ h' :=
  exists_since_eq_append _ _ _

theorem mem_numbered_note {x : Ticket × Operation} (g : Lineup) (e : Happening)
    (hx : x ∈ numbered g.submitted) : x ∈ numbered (g.note e).submitted := by
  cases e with
  | heard now c s =>
    cases s with
    | submit op =>
      simp only [Lineup.note, numbered_snoc]
      exact List.mem_append_left _ hx
    | _ => exact hx
  | did now c o => cases o <;> exact hx

theorem hasYielded_note (g : Slumber) (e : Happening) (hy : g.hasYielded = true) :
    (g.note e).hasYielded = true := by
  obtain ⟨x, hx, hyields⟩ := List.any_eq_true.mp hy
  exact List.any_eq_true.mpr ⟨x, mem_ended_note g e hx, hyields⟩

theorem answered_did (g : Bracket) (now : Nat) (c : Coordinator) (o : Output) :
    (g.note (.did now c o)).answered = g.answered ∨ (g.note (.did now c o)).answered = [] := by
  cases o with
  | started ticket op => exact .inl rfl
  | notice n =>
    simp only [Bracket.note, Bracket.tell]
    split <;> exact .inl rfl
  | phaseSet p => cases p <;> exact .inl rfl
  | call x => cases x <;> exact .inl rfl
  | finished ticket result => exact .inr rfl

/-- Only a signal can bring an answer. -/
theorem answered_moments {h : Story} (now : Nat) (ms : List Moment)
    (ha : (brackets.read (h ++ ms.map fun m => .did now m.seen m.output)).answered ≠ []) :
    (brackets.read h).answered ≠ [] := by
  induction ms generalizing h with
  | nil => simpa using ha
  | cons m ms ih =>
    rw [List.map_cons, List.append_cons] at ha
    have hm := ih ha
    rw [brackets.read_snoc] at hm
    rcases answered_did (brackets.read h) now m.seen m.output with he | he
    · exact fun hn => hm (he.trans hn)
    · exact (hm he).elim

theorem answered_onward {h : Story} {c : Coordinator} {now : Nat} {s : Signal}
    (ha : (brackets.read (onward h c now s)).answered ≠ []) :
    ((brackets.read h).note (.heard now c s)).answered ≠ [] := by
  have hm := answered_moments _ _ ha
  rwa [brackets.read_snoc] at hm

theorem isPanic_ofResult (result : Except Fault Answer) : (Reply.ofResult result).isPanic = false := by
  cases result with
  | error f => rfl
  | ok a => cases a <;> rfl

theorem asksDependent_of_errand? {stage : Stage} {op : Operation} (h : stage.errand? = some op) :
    stage.asksDependent = true := by
  cases stage with
  | stoppingDependent | resumingDependent => rfl
  | _ => simp [Stage.errand?] at h

/-- Nothing but an answer of the dependent is written down as one. -/
theorem answered_heard {g : Bracket} {now : Nat} {c : Coordinator} {s : Signal}
    (hn : ∀ s' r, c.stage = some (.stoppingDependent s') → s ≠ .reply r) :
    g.note (.heard now c s) = g := by
  cases s with
  | reply r =>
    simp only [Bracket.note]
    cases hs : c.stage with
    | none => rfl
    | some stage =>
      cases stage with
      | stoppingDependent s' => exact (hn s' r hs rfl).elim
      | _ => rfl
  | _ => rfl

section
variable {mainName mainTool name tool : String} {mainSettings settings : Settings}
variable {hm hd : Story} {p : Pair}

theorem submit_numbered (hr : Run serversReturn (fresh name tool settings) hd p.companion) {now : Nat}
    {op : Operation} {ticket : Ticket} (ht : (p.companion.submit op).1 = some ticket) :
    (ticket, op) ∈ numbered (lineups.read (onward hd p.companion now (.submit op))).submitted := by
  obtain ⟨-, -, ⟨ho, -⟩⟩ := Lineup.run_holds (fun _ _ hs => (Bool.and_eq_true_iff.mp hs).1) hr
  have hticket : ticket = (lineups.read hd).submitted.length := by
    have haccepted : some p.companion.queue.accepted = some ticket := by
      simpa [submit, Dispatcher.submit, ho.isOpen] using ht
    exact (Option.some.inj haccepted).symm.trans ho.accepted
  have hstory : onward hd p.companion now (.submit op) =
      hd ++ [.heard now p.companion (.submit op)] := by
    simp [onward, Turn.since, hear]
  rw [hstory, lineups.read_snoc, hticket]
  simp only [lineups, Lineup.note, numbered_snoc]
  exact List.mem_append_right _ (List.mem_singleton_self _)

theorem Linked.hasYielded {m₀ : Coordinator} (hl : Linked m₀ (fresh name tool settings) hm hd p)
    {s : Sequence} {ticket : Ticket} {result : Except Fault Answer}
    (hs : p.main.stage = some (.stoppingDependent s)) (he : p.errand = some ticket)
    (hf : Ended hd ticket result) : (slumbers.read hd).hasYielded = true := by
  obtain ⟨stage, op, hstage, hop, hmem⟩ := hl.errand ticket he
  obtain rfl : stage = .stoppingDependent s := Option.some.inj (hstage.symm.trans hs)
  obtain rfl : Operation.yieldCaches = op := Option.some.inj hop
  obtain ⟨now, seen, hfin⟩ := hf
  exact List.any_eq_true.mpr ⟨_, hl.companion.ended_of_finished hfin hmem, rfl⟩

theorem PairRun.linked
    (hr : PairRun (fresh mainName mainTool mainSettings) (fresh name tool settings) hm hd p) :
    Linked (fresh mainName mainTool mainSettings) (fresh name tool settings) hm hd p := by
  induction hr with
  | start =>
    exact ⟨.start, .start, fun _ ht => (Option.some_ne_none _ ht.symm).elim, fun ha => (ha rfl).elim⟩
  | @main hm hd p now s _ hs ih =>
    have hfits : s.Fits dependentReturns p.main := hs.mono fun stage r h => by
      simp_all [dependentReturns]
    -- Where the dependent is asked, nothing that the main coordinator hears here is a reply.
    have hother : ∀ r, s = .reply r → ∀ stage, p.main.stage = some stage →
        stage.asksDependent = false := by
      rintro r rfl stage hstage
      obtain ⟨stage', hstage', hc⟩ := hs
      obtain rfl : stage' = stage := Option.some.inj (hstage'.symm.trans hstage)
      simp_all
    refine ⟨ih.main.hear now s hfits, ih.companion, ?_, ?_⟩
    · intro ticket ht
      obtain ⟨stage, op, hstage, hop, hmem⟩ := ih.errand ticket ht
      refine ⟨stage, op, (hear_of_waiting (Bracket.run_holds ih.main).2.1 hstage now ?_).2, hop, hmem⟩
      intro r hr
      have hn := hother r hr stage hstage
      simp [asksDependent_of_errand? hop] at hn
    · intro ha
      have ha' := answered_onward ha
      rw [answered_heard] at ha'
      · exact ih.answered ha'
      · intro s' r hstage hr
        have hn := hother r hr _ hstage
        simp [Stage.asksDependent] at hn
  | @companion hm hd p now s _ hs ih =>
    obtain ⟨h', hh⟩ := exists_onward hd p.companion now s
    refine ⟨ih.main, ih.companion.hear now s hs, ?_, ?_⟩
    · intro ticket ht
      obtain ⟨stage, op, hstage, hop, hm⟩ := ih.errand ticket ht
      exact ⟨stage, op, hstage, hop, hh ▸ lineups.read_append mem_numbered_note hm h'⟩
    · intro ha
      exact hh ▸ slumbers.read_append hasYielded_note (ih.answered ha) h'
  | @ask hm hd p stage op now _ hstage hop he ih =>
    obtain ⟨h', hh⟩ := exists_onward hd p.companion now (.submit op)
    refine ⟨ih.main, ih.companion.hear now (.submit op) trivial, ?_, ?_⟩
    · intro ticket ht
      exact ⟨stage, op, hstage, hop, submit_numbered ih.companion ht⟩
    · intro ha
      exact hh ▸ slumbers.read_append hasYielded_note (ih.answered ha) h'
  | @answer hm hd p ticket result now _ he hf hs ih =>
    have hfits : (Signal.reply (.ofResult result)).Fits dependentReturns p.main := by
      obtain ⟨stage, hstage, hc⟩ := hs
      exact ⟨stage, hstage, by simp [dependentReturns, hc, isPanic_ofResult]⟩
    refine ⟨ih.main.hear now _ hfits, ih.companion,
      fun _ ht => (Option.some_ne_none _ ht.symm).elim, fun ha => ?_⟩
    -- The answer is that of a stop, or of a restart that comes after the caches have been cleared.
    by_cases hstage : ∃ s, p.main.stage = some (.stoppingDependent s)
    · obtain ⟨s, hstage⟩ := hstage
      exact ih.hasYielded hstage he hf
    · have ha' := answered_onward ha
      rw [answered_heard fun s r h => (hstage ⟨s, h⟩).elim] at ha'
      exact ih.answered ha'

theorem Linked.hasYielded_of_inWindow
    (hl : Linked (fresh mainName mainTool mainSettings) (fresh name tool settings) hm hd p)
    (hw : p.InWindow hd) : (slumbers.read hd).hasYielded = true := by
  -- A sequence that goes on has the answer of its dependent.
  have hopen : ∀ s, Bracket.Open s (brackets.read hm) → s.dependent.isSome →
      (slumbers.read hd).hasYielded = true := by
    intro s ho hd
    obtain ⟨d, hd⟩ := Option.isSome_iff_exists.mp hd
    refine hl.answered ?_
    rw [ho.answered, ho.asked, ho.wanted, hd]
    exact List.cons_ne_nil d []
  obtain ⟨-, -, hc⟩ := Bracket.run_holds hl.main
  cases hs : p.main.stage with
  | none => simp [Pair.InWindow, hs] at hw
  | some stage =>
    simp only [point, hs] at hc
    simp only [Pair.InWindow, hs] at hw
    cases stage with
    | stoppingDependent s =>
      obtain ⟨ticket, result, he, hf⟩ := hw
      exact hl.hasYielded hs he hf
    | stoppingOld s | clearing s => exact hopen s hc hw
    | _ => exact hw.elim

/-! ## A companion that is roused -/

theorem Pair.InWindow.onward {p' : Pair} (hw : p.InWindow hd) (hmain : p'.main = p.main)
    (herrand : p'.errand = p.errand) (c : Coordinator) (now : Nat) (s : Signal) :
    p'.InWindow (onward hd c now s) := by
  obtain ⟨h', hh⟩ := exists_onward hd c now s
  simp only [InWindow, hmain, herrand] at hw ⊢
  split at hw
  · obtain ⟨ticket, result, he, hf⟩ := hw
    exact ⟨ticket, result, he, hh ▸ hf.append h'⟩
  · exact hw
  · exact hw
  · exact hw

theorem PairRun.companion_onward {m₀ d₀ : Coordinator} (hr : PairRun m₀ d₀ hm hd p)
    (hw : p.InWindow hd) (now : Nat) (s : Signal) (hs : s.Fits serversReturn p.companion) :
    ∃ hd' p', PairRun m₀ d₀ hm hd' p' ∧ p'.main = p.main ∧ p'.InWindow hd' ∧
      p'.companion = (p.companion.hear now s).state :=
  ⟨_, _, hr.companion now s hs, rfl, hw.onward rfl rfl p.companion now s, rfl⟩

/-- A coordinator that has nothing to do and no server goes straight to a launch, or to what has to
be prepared for it. -/
theorem stage_activate {d : Coordinator} (hr : d.queue.running = none)
    (hw : d.queue.waiting = []) (hc : d.queue.closed = false) (hh : d.handle = none)
    (hp : d.phase = .uninitialized) (now : Nat) :
    ∃ s, ((d.submit .activate).2.hear now .wake).state.stage = some (.preparing s) ∨
      ((d.submit .activate).2.hear now .wake).state.stage = some (.launching s) := by
  have hq : (d.submit .activate).2.queue.start? = some (.activate,
      { d.queue with
        waiting := [], running := some d.queue.accepted, accepted := d.queue.accepted + 1
        pending := d.queue.pending + 1 }) := by
    simp [submit, Dispatcher.submit, hc, hw, Dispatcher.start?, hr]
  have hlen : (d.submit .activate).2.queue.waiting.length = 1 := by
    simp [submit, Dispatcher.submit, hc, hw]
  simp only [hear, wake, hlen, Turn.proceed, hq]
  cases he : d.settings.environment.enabled <;>
    simp [Turn.start, Turn.begin, Turn.beginSequence, Turn.stopOld, Turn.stopCurrent, Turn.clear,
      Turn.prepare, Turn.launch, Turn.publish, Turn.ask, submit, Trigger.clearsCaches, hp, hh, he]

/-- A reply after which the operation goes on: nothing else is started in that turn. -/
theorem hear_reply {c : Coordinator} {stage : Stage} (hc : c.point.Sound c)
    (hs : c.stage = some stage) (now : Nat) {r : Reply}
    (hq : (Turn.resume ⟨now, c, []⟩ stage r).state.queue = c.queue) :
    c.hear now (.reply r) = Turn.resume ⟨now, c, []⟩ stage r := by
  simp only [hear, reply, hs]
  exact proceed_of_running (hq ▸ isSome_running hc hs) _

/-- As long as it sleeps and has nothing to do, anyone can get a server started in the window. -/
theorem PairRun.rouse
    (hr : PairRun (fresh mainName mainTool mainSettings) (fresh name tool settings) hm hd p)
    (hw : p.InWindow hd) (hasleep : (slumbers.read hd).asleep = true)
    (hstage : p.companion.stage = none) (hwaiting : p.companion.queue.waiting = []) (id : ServerId) :
    ∃ hd' p', PairRun (fresh mainName mainTool mainSettings) (fresh name tool settings) hm hd' p' ∧
      p'.main = p.main ∧ p'.InWindow hd' ∧ (ledgers.read hd').live = [id] := by
  have hl := hr.linked
  obtain ⟨-, hsound, hline, -⟩ :=
    Lineup.run_holds (fun _ _ hs => (Bool.and_eq_true_iff.mp hs).1) hl.companion
  obtain ⟨-, hhandle, hphase⟩ := hl.companion.live_of_asleep hasleep
  simp only [point, hstage] at hsound
  obtain ⟨hd₁, p₁, hr₁, hm₁, hw₁, hc₁⟩ := hr.companion_onward hw 0 (.submit .activate) trivial
  obtain ⟨hd₂, p₂, hr₂, hm₂, hw₂, hc₂⟩ := hr₁.companion_onward hw₁ 0 .wake trivial
  obtain ⟨s, hs⟩ := stage_activate hsound.2 hwaiting hline.isOpen hhandle hphase 0
  have hstage₂ : p₂.companion.stage = some (.preparing s) ∨
      p₂.companion.stage = some (.launching s) := by
    rw [hc₂, hc₁]
    exact hs
  -- Whatever has to be prepared, the server is launched next.
  obtain ⟨hd₃, p₃, hr₃, hm₃, hw₃, hstage₃⟩ : ∃ hd₃ p₃,
      PairRun (fresh mainName mainTool mainSettings) (fresh name tool settings) hm hd₃ p₃ ∧
      p₃.main = p₂.main ∧ p₃.InWindow hd₃ ∧ p₃.companion.stage = some (.launching s) := by
    rcases hstage₂ with hs₂ | hs₂
    · obtain ⟨hd₃, p₃, hr₃, hm₃, hw₃, hc₃⟩ :=
        hr₂.companion_onward hw₂ 0 (.reply (.environment [])) ⟨_, hs₂, rfl⟩
      refine ⟨hd₃, p₃, hr₃, hm₃, hw₃, ?_⟩
      rw [hc₃, hear_reply (Ownership.run_holds hr₂.linked.companion).2.1 hs₂ 0 rfl]
      rfl
    · exact ⟨hd₂, p₂, hr₂, rfl, hw₂, hs₂⟩
  obtain ⟨hd₄, p₄, hr₄, hm₄, hw₄, hc₄⟩ :=
    hr₃.companion_onward hw₃ 0 (.reply (.server id)) ⟨_, hstage₃, rfl⟩
  have hstage₄ : p₄.companion.stage = some (.awaitingReady s id) := by
    rw [hc₄, hear_reply (Ownership.run_holds hr₃.linked.companion).2.1 hstage₃ 0 rfl]
    rfl
  obtain ⟨-, -, ho⟩ := Ownership.run_holds hr₄.linked.companion
  simp only [point, hstage₄] at ho
  exact ⟨hd₄, p₄, hr₄, by rw [hm₄, hm₃, hm₂, hm₁], hw₄, ho.1.live⟩

/-- In the window the companion has yielded, and it stays down until an activation or a restart of
another caller is carried out there. Nothing keeps one from being carried out. -/
theorem companion_down_until_roused
    (hr : PairRun (fresh mainName mainTool mainSettings) (fresh name tool settings) hm hd p)
    (hw : p.InWindow hd) :
    (slumbers.read hd).hasYielded = true ∧
    ((slumbers.read hd).roused = false → (ledgers.read hd).live = [] ∧
      p.companion.handle = none ∧ p.companion.phase = .uninitialized) ∧
    ((slumbers.read hd).roused = false → p.companion.stage = none →
      p.companion.queue.waiting = [] → ∀ id, ∃ hd' p',
        PairRun (fresh mainName mainTool mainSettings) (fresh name tool settings) hm hd' p' ∧
        p'.main = p.main ∧ p'.InWindow hd' ∧ (ledgers.read hd').live = [id]) := by
  have hl := hr.linked
  have hy := hl.hasYielded_of_inWindow hw
  have hasleep : (slumbers.read hd).roused = false → (slumbers.read hd).asleep = true := by
    intro hn
    simp [Slumber.asleep, hy, hn]
  exact ⟨hy, fun hn => hl.companion.live_of_asleep (hasleep hn),
    fun hn hstage hwaiting id => hr.rouse hw (hasleep hn) hstage hwaiting id⟩

end

/-- While the main coordinator clears the caches, someone activates the companion. -/
theorem companion_down_until_roused_activated : ∃ hm hd p,
    PairRun (fresh "main" "rcc" { environment := { enabled := true } }) (fresh "companion" "rcc" {})
      hm hd p ∧ p.InWindow hd ∧ (slumbers.read hd).roused = false ∧ (ledgers.read hd).live = [] ∧
    ∃ hd' p', PairRun (fresh "main" "rcc" { environment := { enabled := true } })
        (fresh "companion" "rcc" {}) hm hd' p' ∧
      (∃ s, p'.main.stage = some (.clearing s)) ∧ p'.InWindow hd' ∧
      (ledgers.read hd').live = ["ls-2"] := by
  have run := (.start : PairRun (fresh "main" "rcc" { environment := { enabled := true } })
      (fresh "companion" "rcc" {}) [] [] _)
    |>.companion 0 (.submit .activate) trivial
    |>.companion 0 .wake trivial
    |>.companion 1 (.reply (.server "ls-1")) ⟨_, rfl, rfl⟩
    |>.companion 2 (.reply .done) ⟨_, rfl, rfl⟩
    |>.main 3 (.setDependent 0) trivial
    |>.main 3 (.submit (.restart .clearCaches)) trivial
    |>.main 3 .wake trivial
    |>.ask 3 rfl rfl rfl
    |>.companion 3 .wake trivial
    |>.companion 5 (.reply .done) ⟨_, rfl, rfl⟩
    |>.answer 5 rfl
      ⟨_, _, List.mem_append_right _ (.tail _ (.tail _ (.tail _ (.head _))))⟩ ⟨_, rfl, rfl⟩
  obtain ⟨-, hdown, hrouse⟩ := companion_down_until_roused run rfl
  obtain ⟨hd', p', hr', hmain, hw', hlive⟩ := hrouse rfl rfl rfl "ls-2"
  exact ⟨_, _, _, run, rfl, rfl, (hdown rfl).1, hd', p', hr', ⟨_, by rw [hmain]; rfl⟩, hw', hlive⟩

end Coordinator

end Supervisor
