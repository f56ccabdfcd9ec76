import Supervisor.Course
import Supervisor.Proofs.Coordinator.Moves
/-!
# The collaborators of a coordinator

A coordinator works together with a dependent, a tool, a launcher and servers. How they answer is told
here for each operation, and a story in which they answer so keeps a journal of its calls.
-/
namespace Supervisor

/-- Does it go to a server, the tool or the launcher? -/
def Call.isOutward : Call → Bool
  | .stopServer _ | .clearCaches _ | .prepareEnvironment _ | .launch _ | .awaitReady _ _ => true
  | _ => false

/-- How the collaborators answer the calls of one operation: after how many milliseconds, and with
what. Any of them may fail, and none of them panics or keeps silent. -/
structure Company where
  prepareDependent : Nat × Except Fault Bool
  /-- The server that was held before. -/
  stop : Nat × Except Fault Unit
  clear : Nat × Except Fault Unit
  prepare : Nat × Except Fault (Table String)
  launch : Nat × Except Fault ServerId
  ready : Nat × Except Fault Unit
  /-- The server that did not become ready. -/
  stopUnready : Nat × Except Fault Unit
  finishDependent : Nat × Except Fault Unit
  removal : Nat

/-- How many milliseconds a server may take to become ready; zero seconds are no limit. -/
def ServerSettings.readyLimit (s : ServerSettings) : Option Nat :=
  if s.readyTimeoutSeconds = 0 then none else some (s.readyTimeoutSeconds * 1000)

theorem ServerSettings.isSome_readyTimeout (s : ServerSettings) :
    s.readyTimeout.isSome = s.readyLimit.isSome := by
  unfold readyTimeout readyLimit
  split <;> rfl

namespace Reply

def returned {α : Type} (f : α → Reply) : Except Fault α → Reply
  | .ok a => f a
  | .error e => .fault e

theorem isPanic_returned {α : Type} {f : α → Reply} (hf : ∀ a, (f a).isPanic = false)
    (x : Except Fault α) : (returned f x).isPanic = false := by
  cases x with
  | ok a => exact hf a
  | error e => rfl

end Reply

/-- What the call brings that is waited for there. -/
def Stage.reaction (b : Company) : Stage → Nat × Reply
  | .stoppingDependent _ => b.prepareDependent.map id (.returned .flag)
  | .stoppingOld _ _ _ | .shuttingDown _ _ | .yielding _ _ _ =>
    b.stop.map id (.returned fun _ => .done)
  | .clearing _ => b.clear.map id (.returned fun _ => .done)
  | .preparing _ => b.prepare.map id (.returned .environment)
  | .launching _ => b.launch.map id (.returned .server)
  | .awaitingReady s _ =>
    inTime .overdue s.settings.server.readyLimit (b.ready.map id (.returned fun _ => .done))
  | .stoppingUnready _ _ _ => b.stopUnready.map id (.returned fun _ => .done)
  | .resumingDependent _ _ => b.finishDependent.map id (.returned fun _ => .done)
  | .removingCache _ => (b.removal, .done)

/-- No collaborator panics. -/
theorem Stage.isPanic_reaction (b : Company) (stage : Stage) :
    (stage.reaction b).2.isPanic = false := by
  cases stage with
  | awaitingReady s id =>
    simp only [reaction, inTime]
    split
    · split
      · exact Reply.isPanic_returned (fun _ => rfl) _
      · rfl
    · exact Reply.isPanic_returned (fun _ => rfl) _
  | removingCache => rfl
  | _ => exact Reply.isPanic_returned (fun _ => rfl) _

theorem Stage.accepts_reaction (b : Company) (stage : Stage) :
    stage.accepts (stage.reaction b).2 = true := by
  cases stage with
  | awaitingReady s id =>
    have hlimit := s.settings.server.isSome_readyTimeout
    simp only [reaction, inTime]
    cases hl : s.settings.server.readyLimit with
    | some l =>
      simp only
      split
      · cases hr : b.ready.2 <;> simp [hr, Reply.returned, accepts]
      · simp [accepts, hlimit, hl]
    | none => cases hr : b.ready.2 <;> simp [hr, Reply.returned, accepts]
  | stoppingDependent => cases hr : b.prepareDependent.2 <;> simp [reaction, hr, Reply.returned, accepts]
  | stoppingOld | shuttingDown | yielding =>
    cases hr : b.stop.2 <;> simp [reaction, hr, Reply.returned, accepts]
  | clearing => cases hr : b.clear.2 <;> simp [reaction, hr, Reply.returned, accepts]
  | preparing => cases hr : b.prepare.2 <;> simp [reaction, hr, Reply.returned, accepts]
  | launching => cases hr : b.launch.2 <;> simp [reaction, hr, Reply.returned, accepts]
  | stoppingUnready => cases hr : b.stopUnready.2 <;> simp [reaction, hr, Reply.returned, accepts]
  | resumingDependent => cases hr : b.finishDependent.2 <;> simp [reaction, hr, Reply.returned, accepts]
  | removingCache => rfl

namespace Coordinator

/-- An operation that was started. -/
structure Start where
  ticket : Ticket
  op : Operation
  alive : Bool

structure Journal where
  /-- The calls that went outward. -/
  calls : List Call := []
  starts : List Start := []
  /-- When the latest call was made. -/
  asked : Nat := 0

def Journal.note (g : Journal) : Happening → Journal
  | .did _ c (.started ticket op) => { g with starts := g.starts ++ [⟨ticket, op, c.hasLiveServer⟩] }
  | .did now _ (.call x) =>
    { g with calls := g.calls ++ if x.isOutward then [x] else [], asked := now }
  | _ => g

def journals : Watch Journal where
  start := {}
  note := Journal.note
  law _ _ := True

/-- The company of the operation that is running. -/
def company (b : Ticket → Company) (c : Coordinator) : Company := b (c.queue.running.getD 0)

/-- A reply comes when the call that was made last returns, and tells what it returned. -/
def Heeded (b : Ticket → Company) (g : Journal) : Happening → Prop
  | .heard now c (.reply r) => ∀ stage, c.stage = some stage →
    (now, r) = (g.asked + (stage.reaction (c.company b)).1, (stage.reaction (c.company b)).2)
  | _ => True

/-- All along the story the collaborators answer as `b` tells. -/
def Heeds (b : Ticket → Company) (h : Story) : Prop :=
  Always (fun before e => Heeded b (journals.read before) e) h

theorem heeds_dids {b : Ticket → Company} {h : Story} (now : Nat) (ms : List Moment)
    (hb : Heeds b h) : Heeds b (h ++ ms.map fun m => .did now m.seen m.output) := by
  refine always_append.mpr ⟨hb, ?_⟩
  intro before e after he
  have hmem : e ∈ ms.map fun m => Happening.did now m.seen m.output := by
    rw [he]
    simp
  obtain ⟨m, -, rfl⟩ := List.mem_map.mp hmem
  trivial

/-- A run in which the collaborators answer as `b` tells. -/
structure RunIn (b : Ticket → Company) (c₀ : Coordinator) (h : Story) (c : Coordinator) : Prop where
  run : Run Stage.accepts c₀ h c
  heeds : Heeds b h

namespace RunIn
variable {b : Ticket → Company} {c₀ c : Coordinator} {h : Story}

theorem start (b : Ticket → Company) (c₀ : Coordinator) : RunIn b c₀ [] c₀ :=
  ⟨.start, always_nil _⟩

theorem hear (hr : RunIn b c₀ h c) (now : Nat) (s : Signal) (hs : s.Fits Stage.accepts c)
    (hb : Heeded b (journals.read h) (.heard now c s)) :
    RunIn b c₀ ((c.hear now s).since (h ++ [.heard now c s])) (c.hear now s).state :=
  ⟨hr.run.hear now s hs, heeds_dids _ _ (always_snoc.mpr ⟨hr.heeds, hb⟩)⟩

/-- The reply comes that is due. -/
theorem answer (hr : RunIn b c₀ h c) (now : Nat) (r : Reply) {stage : Stage}
    (hs : c.stage = some stage)
    (hb : (now, r) = ((journals.read h).asked + (stage.reaction (c.company b)).1,
      (stage.reaction (c.company b)).2)) :
    RunIn b c₀ ((c.hear now (.reply r)).since (h ++ [.heard now c (.reply r)]))
      (c.hear now (.reply r)).state := by
  obtain ⟨rfl, rfl⟩ := Prod.mk.inj hb
  refine hr.hear _ _ ⟨stage, hs, stage.accepts_reaction _⟩ ?_
  intro stage' hs'
  obtain rfl : stage = stage' := Option.some.inj (hs.symm.trans hs')
  rfl

end RunIn

end Coordinator

end Supervisor
