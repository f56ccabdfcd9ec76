import Supervisor.Proofs.Coordinator.Moves
/-!
# Owners of servers

A server that was launched is live until it is asked to stop. A ledger of the servers of a story
shows that a coordinator never has two of them, that it asks none to stop twice, and that between
operations the live server is the one that it holds.
-/
namespace Supervisor

/-- Where a server is asked for something. -/
def Stage.asksServer : Stage → Bool
  | .stoppingOld _ _ _ | .awaitingReady _ _ | .stoppingUnready _ _ _ | .shuttingDown _ _
  | .yielding _ _ _ => true
  | _ => false

def Operation.isStop : Operation → Bool
  | .stop => true
  | _ => false

namespace Coordinator

/-- What is asked of a server does not panic. -/
def serversReturn : Conduct := fun s r => s.accepts r && !(r.isPanic && s.asksServer)

structure Ledger where
  /-- Those that were launched, the oldest first. -/
  launched : List ServerId := []
  asked : List ServerId := []
  /-- Those that were launched and have not been asked to stop. -/
  live : List ServerId := []
  /-- Is the operation that was started last a stop? -/
  stopping : Bool := false

namespace Ledger

def enroll (g : Ledger) (id : ServerId) : Ledger :=
  { g with launched := g.launched ++ [id], live := g.live ++ [id] }

def ask (g : Ledger) (id : ServerId) : Ledger :=
  { g with asked := g.asked ++ [id], live := g.live.erase id }

def note (g : Ledger) : Happening → Ledger
  | .heard _ _ (.reply (.server id)) => g.enroll id
  | .did _ _ (.call (.stopServer id)) => g.ask id
  | .did _ _ (.started _ op) => { g with stopping := op.isStop }
  | _ => g

/-- What has to hold when something happens: a launch needs room, only live servers are asked to
stop, and a stop leaves none. -/
def allows (g : Ledger) : Happening → Prop
  | .did _ _ (.call (.launch _)) => g.live = []
  | .did _ _ (.call (.stopServer id)) => id ∈ g.live
  | .did _ _ (.finished _ _) => g.stopping = true → g.live = []
  | _ => True

/-- Each server that was launched has been asked to stop once, or is live. -/
def Balanced (g : Ledger) : Prop := (g.asked ++ g.live).Perm g.launched

theorem Balanced.enroll {g : Ledger} (hb : g.Balanced) (id : ServerId) : (g.enroll id).Balanced := by
  have hp := hb.append_right [id]
  simpa [Balanced, Ledger.enroll] using hp

theorem Balanced.ask {g : Ledger} {id : ServerId} (hb : g.Balanced) (hl : id ∈ g.live) :
    (g.ask id).Balanced := by
  have hp : (id :: g.live.erase id).Perm g.live := (List.perm_cons_erase hl).symm
  have ha := (hp.append_left g.asked).trans hb
  simpa [Balanced, Ledger.ask] using ha

/-- No server is asked to stop twice, unless two were launched under one name. -/
theorem Balanced.nodup_asked {g : Ledger} (hb : g.Balanced) (hl : g.launched.Nodup) :
    g.asked.Nodup :=
  (List.nodup_append.mp (hb.nodup_iff.mpr hl)).1

end Ledger

structure Accounted (g : Ledger) (c : Coordinator) : Prop where
  balanced : g.Balanced
  one : g.live.length ≤ 1
  ready : c.queue.running = none → c.phase = .ready → ∃ id, c.handle = some id ∧ g.live = [id]
  vacant : c.queue.running = none → c.phase = .uninitialized ∨ c.phase = .failed → g.live = []

def ledgers : Watch Ledger where
  start := {}
  note := Ledger.note
  law g e := g.allows e ∧ Accounted (g.note e) e.seen

/-! ## What holds at the points of a coordinator -/

namespace Ownership

/-- The live server is the one that is held. -/
structure Owning (g : Ledger) (f : Face) : Prop where
  balanced : g.Balanced
  live : g.live = f.handle.toList
  ready : f.phase = .ready → f.handle.isSome
  vacant : f.phase = .uninitialized ∨ f.phase = .failed → f.handle = none

structure Free (g : Ledger) (f : Face) : Prop where
  balanced : g.Balanced
  live : g.live = []
  handle : f.handle = none

/-- The live server is in the hands of the start sequence. -/
structure InHand (id : ServerId) (g : Ledger) (f : Face) : Prop where
  balanced : g.Balanced
  live : g.live = [id]
  handle : f.handle = none

def Waiting : Stage → Ledger → Face → Prop
  | .stoppingDependent _ => fun g f => Owning g f ∧ g.stopping = false
  | .stoppingOld _ _ _ | .clearing _ | .preparing _ | .launching _ | .stoppingUnready _ _ _ =>
    fun g f => Free g f ∧ g.stopping = false
  | .awaitingReady _ id => fun g f => InHand id g f ∧ g.stopping = false
  | .resumingDependent _ _ => fun g f => Owning g f ∧ (g.stopping = true → g.live = [])
  | .shuttingDown _ _ | .yielding _ _ _ | .removingCache _ => Free

/-- A server that has just been launched is live at once. -/
def Answered (stage : Stage) : Reply → Ledger → Face → Prop
  | .server id => fun g f => InHand id g f ∧ g.stopping = false
  | _ => Waiting stage

def Holds : Point → Ledger → Face → Prop
  | .idle | .looking | .dropping .shutdown => Owning
  | .begun op => fun g f => Owning g f ∧ g.stopping = op.isStop
  | .entering _ _ | .entered _ | .dropping _ => fun g f => Owning g f ∧ g.stopping = false
  | .clear _ | .prepare _ | .launch _ _ | .fail _ _ => fun g f => Free g f ∧ g.stopping = false
  | .awaitReady _ id | .stopUnready _ id _ | .succeed _ id =>
    fun g f => InHand id g f ∧ g.stopping = false
  | .leave _ _ | .finish _ => fun g f => Owning g f ∧ (g.stopping = true → g.live = [])
  | .clearOwnCache _ | .close _ => Free
  | .waiting stage => Waiting stage
  | .answered stage r => fun g f => Answered stage r g f ∧ serversReturn stage r = true

theorem Owning.modest {g : Ledger} {f : Face} (ho : Owning g f) : g.live.length ≤ 1 := by
  rw [ho.live]
  cases f.handle <;> simp

theorem Free.modest {g : Ledger} {f : Face} (hf : Free g f) : g.live.length ≤ 1 := by
  simp [hf.live]

theorem InHand.modest {g : Ledger} {f : Face} {id : ServerId} (hi : InHand id g f) :
    g.live.length ≤ 1 := by
  simp [hi.live]

/-- While an operation is running, the law asks no more than this. -/
theorem accounted {g : Ledger} {c : Coordinator} (hb : g.Balanced) (hl : g.live.length ≤ 1)
    (hr : c.queue.running.isSome) : Accounted g c :=
  ⟨hb, hl, fun hn => by simp [hn] at hr, fun hn => by simp [hn] at hr⟩

theorem Owning.accounted {g : Ledger} {f : Face} {c : Coordinator} (ho : Owning g f)
    (hf : c.face = f) : Accounted g c := by
  subst hf
  refine ⟨ho.balanced, ho.modest, ?_, ?_⟩
  · intro _ hp
    obtain ⟨id, hid⟩ := Option.isSome_iff_exists.mp (ho.ready hp)
    exact ⟨id, hid, by simp [ho.live, hid]⟩
  · intro _ hp
    simp [ho.live, ho.vacant hp]

theorem Free.accounted {g : Ledger} {f : Face} {c : Coordinator} (hf : Free g f)
    (hr : c.queue.running.isSome) : Accounted g c :=
  Ownership.accounted hf.balanced hf.modest hr

theorem InHand.accounted {g : Ledger} {f : Face} {id : ServerId} {c : Coordinator}
    (hi : InHand id g f) (hr : c.queue.running.isSome) : Accounted g c :=
  Ownership.accounted hi.balanced hi.modest hr

theorem Owning.free {g : Ledger} {f : Face} (ho : Owning g f) (hh : f.handle = none) : Free g f :=
  ⟨ho.balanced, by simp [ho.live, hh], hh⟩

theorem Owning.inHand {g : Ledger} {f : Face} {id : ServerId} (ho : Owning g f)
    (hh : f.handle = some id) : InHand id g { f with handle := none } :=
  ⟨ho.balanced, by simp [ho.live, hh], rfl⟩

/-- The server is asked to stop. -/
theorem InHand.ask {g : Ledger} {f : Face} {id : ServerId} (hi : InHand id g f) :
    Free (g.ask id) f :=
  ⟨hi.balanced.ask (by simp [hi.live]), by simp [Ledger.ask, hi.live], hi.handle⟩

/-- The server is launched. -/
theorem Free.enroll {g : Ledger} {f : Face} (hf : Free g f) (id : ServerId) :
    InHand id (g.enroll id) f :=
  ⟨hf.balanced.enroll id, by simp [Ledger.enroll, hf.live], hf.handle⟩

/-- Without a server, the phase can become one in which none is held. -/
theorem Free.owning {g : Ledger} {f f' : Face} (hf : Free g f) (hh : f'.handle = f.handle)
    (hp : f'.phase ≠ .ready) : Owning g f' := by
  have hn : f'.handle = none := hh.trans hf.handle
  exact ⟨hf.balanced, by simp [hf.live, hn], fun h => (hp h).elim, fun _ => hn⟩

theorem InHand.owning {g : Ledger} {f : Face} {id : ServerId} (hi : InHand id g f)
    (t : Option Trigger) (e : Option String) (n : Nat) : Owning g ⟨.ready, some id, t, e, n⟩ :=
  ⟨hi.balanced, hi.live, fun _ => rfl, fun h => by simp at h⟩

theorem Owning.entered {g : Ledger} {c : Coordinator} (ho : Owning g c.face) (t : Trigger) :
    Owning g (c.entry t).face := by
  have hp : c.openingPhase = .starting ∨ c.openingPhase = .restarting := by
    simp only [openingPhase]
    split <;> simp
  refine ⟨ho.balanced, ho.live, fun h => ?_, fun h => ?_⟩
  · have he : c.openingPhase = .ready := h
    rcases hp with hp | hp <;> simp [hp] at he
  · have he : c.openingPhase = .uninitialized ∨ c.openingPhase = .failed := h
    rcases hp with hp | hp <;> simp [hp] at he

theorem Answered.stopped {stage : Stage} {r : Reply} {o : Option Fault} {g : Ledger} {f : Face}
    (ha : Answered stage r g f) (hr : r.stopped? = some o) : Waiting stage g f := by
  cases r with
  | done | fault => exact ha
  | _ => simp [Reply.stopped?] at hr

theorem Waiting.modest {stage : Stage} {g : Ledger} {f : Face} (h : Waiting stage g f) :
    g.Balanced ∧ g.live.length ≤ 1 := by
  cases stage with
  | stoppingDependent | resumingDependent => exact ⟨h.1.balanced, h.1.modest⟩
  | awaitingReady => exact ⟨h.1.balanced, h.1.modest⟩
  | shuttingDown | yielding | removingCache => exact ⟨Free.balanced h, Free.modest h⟩
  | _ => exact ⟨h.1.balanced, h.1.modest⟩

theorem Waiting.accounted {stage : Stage} {g : Ledger} {f : Face} {c : Coordinator}
    (h : Waiting stage g f) (hr : c.queue.running.isSome) : Accounted g c :=
  Ownership.accounted h.modest.1 h.modest.2 hr

theorem Holds.accounted {g : Ledger} {c : Coordinator} (hs : c.point.Sound c)
    (h : Holds c.point g c.face) : Accounted g c := by
  cases hc : c.stage with
  | none =>
    simp only [point, hc] at h
    exact Owning.accounted h rfl
  | some stage =>
    simp only [point, hc] at h hs
    exact Waiting.accounted h hs.2

theorem move_holds {now : Nat} {g : Ledger} {c c' : Coordinator} {p p' : Point} {ms : List Moment}
    (hs : p.Sound c) (hm : Move now c p ms c' p') (h : Holds p g c.face) :
    ledgers.Passes now ms g fun g' => Holds p' g' c'.face := by
  cases hm with
  | @take op queue hq =>
    have ho : Owning { g with stopping := op.isStop } c.face :=
      ⟨h.balanced, h.live, h.ready, h.vacant⟩
    exact ⟨⟨trivial, ho.accounted rfl⟩, ho, rfl⟩
  | stayReady | keepRunning =>
    exact ⟨h.1, fun hn => by simp [Operation.isStop, h.2] at hn⟩
  | rest | activate | restart | reconfigure | yieldCaches | spareDependent | keepCaches | keepEnvironment
  | keepCache | leave => exact h
  | stop => exact h.1
  | enter trigger answer =>
    have ho := h.1.entered trigger
    have hl : Accounted g (c.entry trigger) := ho.accounted rfl
    exact .shift ⟨trivial, hl⟩ (fun _ _ => ⟨trivial, hl⟩) (fun _ _ _ => rfl) ⟨ho, h.2⟩
  | stopDependent => exact ⟨⟨trivial, h.1.accounted rfl⟩, h⟩
  | gone p hh =>
    cases p with
    | sequence s => exact ⟨h.1.free hh, h.2⟩
    | shutdown => exact Owning.free h hh
    | yielding wasActive => exact h.1.free hh
  | @drop id p hh =>
    have ho : Owning g c.face := by
      cases p with
      | shutdown => exact h
      | sequence | yielding => exact h.1
    have hi := ho.inHand hh
    refine ⟨⟨trivial, hi.accounted hs⟩, ⟨?_, hi.ask.accounted hs⟩, ?_⟩
    · simp [Ledger.allows, ledgers, Ledger.note, hi.live]
    · cases p with
      | shutdown | yielding => exact hi.ask
      | sequence s => exact ⟨hi.ask, h.2⟩
  | clearCaches | prepareEnvironment =>
    exact ⟨⟨trivial, h.1.accounted hs⟩, ⟨trivial, h.1.accounted hs⟩, h⟩
  | launch => exact ⟨⟨trivial, h.1.accounted hs⟩, ⟨h.1.live, h.1.accounted hs⟩, h⟩
  | awaitReady => exact ⟨⟨trivial, h.1.accounted hs⟩, ⟨trivial, h.1.accounted hs⟩, h⟩
  | stopUnready s id reason =>
    refine ⟨⟨?_, h.1.ask.accounted hs⟩, h.1.ask, h.2⟩
    simp [Ledger.allows, h.1.live]
  | succeed s id =>
    have ho : Owning g (c.succeeded id).face := h.1.owning _ _ _
    have hl : Accounted g (c.succeeded id) := ho.accounted rfl
    rw [Watch.passes_append]
    refine .shift ⟨trivial, hl⟩ (fun _ _ => ⟨trivial, hl⟩) (fun _ _ _ => rfl) ⟨⟨trivial, hl⟩, ho, ?_⟩
    intro hn
    simp [ledgers, Ledger.note, h.2] at hn
  | fail s f =>
    have ho : Owning g (c.failed f).face := h.1.owning rfl (by simp [face, failed, atPhase])
    have hl : Accounted g (c.failed f) := ho.accounted rfl
    rw [Watch.passes_append]
    exact .shift ⟨trivial, hl⟩ (fun _ _ => ⟨trivial, hl⟩) (fun _ _ _ => rfl)
      ⟨⟨trivial, hl⟩, ho, fun _ => h.1.live⟩
  | resumeDependent => exact ⟨⟨trivial, h.1.accounted rfl⟩, h⟩
  | removeCache => exact ⟨⟨trivial, Free.accounted h hs⟩, h⟩
  | close r =>
    have ho : Owning g (c.atPhase .uninitialized).face :=
      Free.owning h rfl (by simp [face, atPhase])
    have hl : Accounted g (c.atPhase .uninitialized) := ho.accounted rfl
    exact .shift ⟨trivial, hl⟩ (fun _ _ => ⟨trivial, hl⟩) (fun _ _ _ => rfl) ⟨ho, fun _ => Free.live h⟩
  | finish r hr => exact ⟨⟨h.2, h.1.accounted rfl⟩, h.1⟩
  | dependentStopped | dependentFailed | cleared | prepared | gotReady | notReady | overdue
  | cacheRemoved | launched => exact h.1
  | unreadyStopped s id reason hr => exact h.1.stopped hr
  | dependentResumed s result hr => exact h.1.stopped hr
  | stopped p id since hr =>
    have hw := h.1.stopped hr
    have ha : Holds p.next g c.face := by
      cases p <;> exact hw
    exact ⟨⟨trivial, hw.accounted hs⟩, ha⟩
  | callFails f hstage =>
    rcases hstage with rfl | rfl | rfl <;> exact h.1
  | @sequencePanics stage s payload hstage =>
    obtain ⟨hw, hr⟩ := h
    cases stage with
    | clearing | preparing | launching =>
      exact hw
    | _ => simp [serversReturn, Stage.asksServer, Reply.isPanic, Stage.guarding?] at hr hstage
  | @operationPanics stage payload hstage =>
    obtain ⟨hw, hr⟩ := h
    cases stage with
    | stoppingDependent s => exact ⟨hw.1, fun hn => by simp [hw.2] at hn⟩
    | resumingDependent s result => exact hw
    | _ => simp [serversReturn, Stage.asksServer, Stage.accepts, Reply.isPanic, Stage.guarding?] at hr hstage

theorem signal_holds {now : Nat} {g : Ledger} {c : Coordinator} {s : Signal}
    (hc : c.point.Sound c) (hs : s.Fits serversReturn c) (h : Holds c.point g c.face) :
    ledgers.law g (.heard now c s) ∧
      Holds (s.target c) (ledgers.note g (.heard now c s)) (s.effect c).face := by
  cases s with
  | reply r =>
    obtain ⟨stage, hstage, hr⟩ := hs
    simp only [point, hstage] at h hc
    simp only [Signal.target, hstage]
    cases r with
    | server id =>
      cases stage with
      | launching s =>
        have hi := h.1.enroll id
        exact ⟨⟨trivial, hi.accounted hc.2⟩, ⟨hi, h.2⟩, hr⟩
      | _ => simp [serversReturn, Stage.accepts] at hr
    | _ => exact ⟨⟨trivial, Waiting.accounted h hc.2⟩, h, hr⟩
  | wake =>
    have hh : Holds c.halt g c.face := at_halt (P := fun p => Holds p g c.face) h id
    exact ⟨⟨trivial, Holds.accounted hc h⟩, hh⟩
  | submit | setDependent | down => exact ⟨⟨trivial, Holds.accounted hc h⟩, h⟩

theorem holds_fresh (name toolName : String) (settings : Settings) :
    Holds .idle ledgers.start (fresh name toolName settings).face := by
  refine ⟨.nil, rfl, ?_, ?_⟩
  all_goals simp [fresh, face]

theorem run_holds {name toolName : String} {settings : Settings} {h : Story} {c : Coordinator}
    (hr : Run serversReturn (fresh name toolName settings) h c) :
    ledgers.Kept h ∧ c.point.Sound c ∧ Holds c.point (ledgers.read h) c.face :=
  hr.upheld (fun _ _ hs => (Bool.and_eq_true_iff.mp hs).1) signal_holds move_holds
    (sound_fresh name toolName settings) (holds_fresh name toolName settings)

/-! ### The server that is held -/

def Held (g : Ledger) (f : Face) : Prop := ∀ id, f.handle = some id → g.live = [id]

/-- What is held is live, and nothing else is. -/
def holdings : Watch Ledger where
  start := ledgers.start
  note := ledgers.note
  law g e := Held (g.note e) e.seen.face

theorem held_of_none {g : Ledger} {f : Face} (hf : f.handle = none) : Held g f := by
  intro id hid
  simp [hf] at hid

theorem Owning.held {g : Ledger} {f : Face} (ho : Owning g f) : Held g f := by
  intro id hid
  simp [ho.live, hid]

theorem Waiting.held {stage : Stage} {g : Ledger} {f : Face} (h : Waiting stage g f) : Held g f := by
  cases stage with
  | stoppingDependent | resumingDependent => exact h.1.held
  | shuttingDown | yielding | removingCache => exact held_of_none (Free.handle h)
  | _ => exact held_of_none h.1.handle

theorem Holds.held {g : Ledger} {c : Coordinator} (h : Holds c.point g c.face) : Held g c.face := by
  cases hc : c.stage with
  | none =>
    simp only [point, hc] at h
    exact Owning.held h
  | some stage =>
    simp only [point, hc] at h
    exact Waiting.held h

theorem move_held {now : Nat} {g : Ledger} {c c' : Coordinator} {p p' : Point} {ms : List Moment}
    (hm : Move now c p ms c' p') (h : Holds p g c.face) :
    holdings.Passes now ms g fun _ => True := by
  cases hm with
  | take hq =>
    have hl : Held g c.face := Owning.held h
    exact ⟨hl, trivial⟩
  | enter trigger answer =>
    have hl : Held g (c.entry trigger).face := (h.1.entered trigger).held
    exact .shift hl (fun _ _ => hl) (fun _ _ _ => rfl) trivial
  | stopDependent | resumeDependent => exact ⟨h.1.held, trivial⟩
  | drop p hh => exact ⟨held_of_none rfl, held_of_none rfl, trivial⟩
  | clearCaches | prepareEnvironment | launch | awaitReady =>
    exact ⟨held_of_none h.1.handle, held_of_none h.1.handle, trivial⟩
  | stopUnready => exact ⟨held_of_none h.1.handle, trivial⟩
  | succeed s id =>
    have hl : Held g (c.succeeded id).face := (h.1.owning _ _ _).held
    rw [Watch.passes_append]
    exact .shift hl (fun _ _ => hl) (fun _ _ _ => rfl) ⟨hl, trivial⟩
  | fail s f =>
    have hl : Held g (c.failed f).face := held_of_none h.1.handle
    rw [Watch.passes_append]
    exact .shift hl (fun _ _ => hl) (fun _ _ _ => rfl) ⟨hl, trivial⟩
  | removeCache => exact ⟨held_of_none (Free.handle h), trivial⟩
  | close r =>
    have hh : c.face.handle = none := Free.handle h
    have hl : Held g (c.atPhase .uninitialized).face := held_of_none hh
    exact .shift hl (fun _ _ => hl) (fun _ _ _ => rfl) trivial
  | finish r hr => exact ⟨h.1.held, trivial⟩
  | stopped p id since hr =>
    have hw := h.1.stopped hr
    refine ⟨held_of_none ?_, trivial⟩
    cases p with
    | sequence => exact hw.1.handle
    | shutdown | yielding => exact Free.handle hw
  | _ => trivial

theorem move_holds_held {now : Nat} {g : Ledger} {c c' : Coordinator} {p p' : Point}
    {ms : List Moment} (hs : p.Sound c) (hm : Move now c p ms c' p') (h : Holds p g c.face) :
    holdings.Passes now ms g fun g' => Holds p' g' c'.face := by
  have hn : holdings.note = ledgers.note := rfl
  exact (move_holds hs hm h).under hn (move_held hm h)

theorem signal_held {now : Nat} {g : Ledger} {c : Coordinator} {s : Signal}
    (hc : c.point.Sound c) (hs : s.Fits serversReturn c) (h : Holds c.point g c.face) :
    holdings.law g (.heard now c s) ∧
      Holds (s.target c) (holdings.note g (.heard now c s)) (s.effect c).face := by
  refine ⟨?_, (@signal_holds now g c s hc hs h).2⟩
  cases s with
  | reply r =>
    cases r with
    | server id =>
      obtain ⟨stage, hstage, hr⟩ := hs
      simp only [point, hstage] at h
      cases stage with
      | launching => exact held_of_none h.1.handle
      | _ => simp [serversReturn, Stage.accepts] at hr
    | _ => exact h.held
  | _ => exact h.held

/-- At each moment of a run the server that is held, if one is held, is the only live one. -/
theorem run_held {name toolName : String} {settings : Settings} {h : Story} {c : Coordinator}
    (hr : Run serversReturn (fresh name toolName settings) h c) :
    Always (fun before e => Held (ledgers.read (before ++ [e])) e.seen.face) h := by
  have hk : holdings.Kept h :=
    (hr.upheld (fun _ _ hs => (Bool.and_eq_true_iff.mp hs).1) signal_held move_holds_held
      (sound_fresh name toolName settings) (holds_fresh name toolName settings)).1
  intro before e after he
  rw [Watch.read_snoc]
  exact hk before e after he

end Ownership

/-- There is never more than one server, no server is asked to stop twice, and when no operation is
running a server is live only if the coordinator is ready and holds it. -/
theorem one_server_at_a_time {name toolName : String} {settings : Settings} {h : Story}
    {c : Coordinator} (hr : Run serversReturn (fresh name toolName settings) h c) :
    Accounted (ledgers.read h) c ∧
      ((ledgers.read h).launched.Nodup → (ledgers.read h).asked.Nodup) ∧
      Always (fun before e => (ledgers.read before).allows e ∧
        Accounted (ledgers.read (before ++ [e])) e.seen) h := by
  obtain ⟨hk, hs, hc⟩ := Ownership.run_holds hr
  have ha := hc.accounted hs
  refine ⟨ha, ha.balanced.nodup_asked, ?_⟩
  intro before e after he
  rw [Watch.read_snoc]
  exact hk before e after he

/-- A server that does not become ready, a restart after that, and a stop. -/
theorem one_server_at_a_time_second_server : ∃ h c,
    Run serversReturn (fresh "main" "rcc" {}) h c ∧ (ledgers.read h).asked = ["ls-1", "ls-2"] ∧
      Accounted (ledgers.read h) c ∧
      ((ledgers.read h).launched.Nodup → (ledgers.read h).asked.Nodup) ∧
      Always (fun before e => (ledgers.read before).allows e ∧
        Accounted (ledgers.read (before ++ [e])) e.seen) h := by
  have run := (.start : Run serversReturn (fresh "main" "rcc" {}) [] _)
    |>.hear 0 (.submit .activate) trivial
    |>.hear 0 .wake trivial
    |>.hear 2 (.reply (.server "ls-1")) ⟨_, rfl, rfl⟩
    |>.hear 3 (.reply (.fault (.readyRejected "no"))) ⟨_, rfl, rfl⟩
    |>.hear 3 (.submit (.restart .command)) trivial
    |>.hear 4 (.reply .done) ⟨_, rfl, rfl⟩
    |>.hear 5 (.reply (.server "ls-2")) ⟨_, rfl, rfl⟩
    |>.hear 6 (.submit .stop) trivial
    |>.hear 6 (.reply .done) ⟨_, rfl, rfl⟩
    |>.hear 7 (.reply (.fault (.stop "late"))) ⟨_, rfl, rfl⟩
  exact ⟨_, _, run, rfl, one_server_at_a_time run⟩

end Coordinator

end Supervisor
