import Supervisor.Proofs.Coordinator.Lineup
/-!
# Panics of a start sequence

A start sequence calls its dependent, its tool, its launcher and its new server, and each of them
may panic. What such a panic leaves behind depends on the call. It is handled like a fault if it
comes from the tool or the launcher; otherwise something is left over.
-/
namespace Supervisor

/-- Where a call is waited for that is made to get a server started. -/
def Stage.isErrand : Stage → Bool
  | .stoppingDependent _ | .clearing _ | .preparing _ | .launching _ | .awaitingReady _ _ => true
  | _ => false

theorem Stage.accepts_panic {stage : Stage} (hs : stage.isErrand = true) (payload : String) :
    stage.accepts (.panicked payload) = true := by
  cases stage with
  | stoppingDependent | clearing | preparing | launching | awaitingReady => rfl
  | _ => simp [isErrand] at hs

/-- Where the tool or the launcher is waited for. -/
def Stage.asksTool : Stage → Bool
  | .clearing _ | .preparing _ | .launching _ => true
  | _ => false

namespace Coordinator

/-- What has happened since an operation was started. -/
structure Episode where
  /-- Where calls have panicked. -/
  panics : List Stage := []
  /-- The codes of the failures that were published. -/
  failures : List (Option String) := []
  /-- The servers that were launched and have not been asked to stop. -/
  unstopped : List ServerId := []

namespace Episode

def reply (g : Episode) (stage : Stage) : Reply → Episode
  | .panicked _ => { g with panics := g.panics ++ [stage] }
  | .server id => { g with unstopped := g.unstopped ++ [id] }
  | _ => g

def tell (g : Episode) (n : Notice) : Episode :=
  match n.kind with
  | .failed => { g with failures := g.failures ++ [n.code] }
  | _ => g

def note (g : Episode) : Happening → Episode
  | .heard _ c (.reply r) =>
    match c.stage with
    | some stage => g.reply stage r
    | none => g
  | .did _ _ (.started _ _) => {}
  | .did _ _ (.notice n) => g.tell n
  | .did _ _ (.call (.stopServer id)) => { g with unstopped := g.unstopped.erase id }
  | _ => g

end Episode

/-- An operation has ended with this result, and has failed because of a panic. -/
structure FailedByPanic (g : Episode) (result : Except Fault Answer) (f : Face) : Prop where
  caller : ∃ e : Fault, result = .error e ∧ e.code = "E_PANIC"
  phase : f.phase = .failed
  lastError : ∃ text, f.lastError = some ("E_PANIC" ++ text)
  trigger : f.trigger = none
  handle : f.handle = none
  failures : g.failures = [some "E_PANIC"]

/-- The panic was handled like any fault: the server that was launched has been asked to stop, and the
queue goes on. -/
structure Contained (g : Episode) (result : Except Fault Answer) (c : Coordinator) (after : Story) :
    Prop extends FailedByPanic g result c.face where
  unstopped : g.unstopped = []
  next : ∀ ticket op rest, c.queue.waiting = (ticket, op) :: rest →
    ∃ now seen after', after = .did now seen (.started ticket op) :: after'

/-- The sequence has been broken off, and nobody but the caller knows. -/
structure BrokenOff (g : Episode) (result : Except Fault Answer) (f : Face) : Prop where
  caller : ∃ e : Fault, result = .error e ∧ e.code = "E_PANIC"
  phase : f.phase = .starting ∨ f.phase = .restarting
  trigger : f.trigger.isSome
  failures : g.failures = []

/-- What is left when an operation ends in which only the call of this stage has panicked. -/
def Aftermath (g : Episode) (result : Except Fault Answer) (f : Face) : Stage → Prop
  | .stoppingDependent _ => BrokenOff g result f
  | .clearing _ | .preparing _ | .launching _ => FailedByPanic g result f ∧ g.unstopped = []
  | .awaitingReady _ id => FailedByPanic g result f ∧ g.unstopped = [id]
  | _ => True

def episodes : Watch Episode where
  start := {}
  note := Episode.note
  law g
    | .did _ c (.finished _ result) => ∀ stage, g.panics = [stage] → Aftermath g result c.face stage
    | _ => True

/-! ## What holds at the points of a coordinator -/

namespace Episode

structure Calm (g : Episode) : Prop where
  panics : g.panics = []
  failures : g.failures = []
  unstopped : g.unstopped = []

structure InTransition (g : Episode) (f : Face) : Prop extends Calm g where
  phase : f.phase = .starting ∨ f.phase = .restarting
  trigger : f.trigger.isSome

structure Cleared (g : Episode) (f : Face) : Prop extends Calm g where
  handle : f.handle = none

/-- A server has been launched, and is not held yet. -/
structure Launched (id : ServerId) (g : Episode) (f : Face) : Prop where
  panics : g.panics = []
  failures : g.failures = []
  unstopped : g.unstopped = [id]
  handle : f.handle = none

/-- The fault of a sequence that fails now, and the server that is left then. -/
def Fated (g : Episode) (e : Fault) : Stage → Prop
  | .stoppingDependent _ => False
  | .clearing _ | .preparing _ | .launching _ => e.code = "E_PANIC" ∧ g.unstopped = []
  | .awaitingReady _ id => e.code = "E_PANIC" ∧ g.unstopped = [id]
  | _ => True

structure Failing (e : Fault) (g : Episode) (f : Face) : Prop where
  handle : f.handle = none
  failures : g.failures = []
  fated : ∀ stage, g.panics = [stage] → Fated g e stage

def Ending (result : Except Fault Answer) (g : Episode) (f : Face) : Prop :=
  ∀ stage, g.panics = [stage] → Aftermath g result f stage

def Waiting : Stage → Episode → Face → Prop
  | .stoppingDependent _ => InTransition
  | .stoppingOld _ _ _ | .clearing _ | .preparing _ | .launching _ | .stoppingUnready _ _ _ => Cleared
  | .awaitingReady _ id => Launched id
  | .resumingDependent _ result => Ending result
  | .shuttingDown _ _ | .yielding _ _ _ | .removingCache _ => fun g _ => Calm g

def Holds : Point → Episode → Face → Prop
  | .idle | .looking => fun _ _ => True
  | .begun _ | .entering _ _ | .dropping .shutdown | .dropping (.yielding _) | .clearOwnCache _
  | .close _ => fun g _ => Calm g
  | .entered _ | .dropping (.sequence _) => InTransition
  | .clear _ | .prepare _ | .launch _ _ => Cleared
  | .awaitReady _ id | .stopUnready _ id _ | .succeed _ id => Launched id
  | .fail _ e => Failing e
  | .leave _ result | .finish result => Ending result
  | .waiting stage => Waiting stage
  | .answered stage r => fun g f => ∃ g₀, Waiting stage g₀ f ∧ g = g₀.reply stage r

theorem Calm.ending {g : Episode} (hg : Calm g) (result : Except Fault Answer) (f : Face) :
    Ending result g f := by
  intro stage hp
  simp [hg.panics] at hp

theorem Cleared.failing {g : Episode} {f : Face} (hg : Cleared g f) (e : Fault) : Failing e g f :=
  ⟨hg.handle, hg.failures, fun stage hp => by simp [hg.panics] at hp⟩

/-- The failure is published, and with it the fate of the sequence is known. -/
theorem Failing.ending {g : Episode} {f : Face} {e : Fault} (hg : Failing e g f) :
    Ending (.error e) (g.tell (Turn.failedNotice e))
      ⟨.failed, f.handle, none, some e.summary, f.restartCount⟩ := by
  intro stage hp
  have hfate := hg.fated stage hp
  have hfailed : e.code = "E_PANIC" → FailedByPanic (g.tell (Turn.failedNotice e)) (.error e)
      ⟨.failed, f.handle, none, some e.summary, f.restartCount⟩ := by
    intro hcode
    refine ⟨⟨e, rfl, hcode⟩, rfl, ⟨": " ++ e.message, ?_⟩, rfl, hg.handle, ?_⟩
    · simp only [Fault.summary]
      rw [hcode, String.append_assoc]
    · simp [Episode.tell, Turn.failedNotice, Notice.ofFault, Notice.error, hg.failures, hcode]
  cases stage with
  | stoppingDependent => exact hfate.elim
  | clearing | preparing | launching | awaitingReady => exact ⟨hfailed hfate.1, hfate.2⟩
  | _ => trivial

theorem stage_of_panics {g : Episode} {stage stage' : Stage} {payload : String}
    (hp : (g.reply stage (.panicked payload)).panics = [stage']) : stage' = stage := by
  have hlast := congrArg List.getLast? hp
  simpa [Episode.reply] using hlast.symm

/-- A panic that fails the sequence. -/
theorem Waiting.panics {g : Episode} {f : Face} {stage : Stage} {s : Sequence} (payload : String)
    (hg : Waiting stage g f) (hs : stage.guarding? = some s) :
    Failing (.operationPanicked payload) (g.reply stage (.panicked payload)) f := by
  cases stage with
  | stoppingOld | stoppingUnready =>
    refine ⟨hg.handle, hg.failures, fun stage' hp => ?_⟩
    rw [stage_of_panics hp]
    trivial
  | clearing | preparing | launching | awaitingReady =>
    refine ⟨hg.handle, hg.failures, fun stage' hp => ?_⟩
    rw [stage_of_panics hp]
    exact ⟨rfl, hg.unstopped⟩
  | _ => simp [Stage.guarding?] at hs

/-- A panic that breaks off the operation. -/
theorem Waiting.breaks {g : Episode} {f : Face} {stage : Stage} (payload : String)
    (hg : Waiting stage g f) (hs : stage.guarding? = none) :
    Ending (.error (.operationPanicked payload)) (g.reply stage (.panicked payload)) f := by
  intro stage' hp
  rw [stage_of_panics hp]
  cases stage with
  | stoppingDependent s => exact ⟨⟨_, rfl, rfl⟩, hg.phase, hg.trigger, hg.failures⟩
  | resumingDependent | shuttingDown | yielding | removingCache => trivial
  | _ => simp [Stage.guarding?] at hs

theorem InTransition.entered {g : Episode} {c : Coordinator} (hg : Calm g) (t : Trigger) :
    InTransition g (c.entry t).face := by
  refine ⟨hg, ?_, rfl⟩
  by_cases hp : c.phase = .ready
  · exact .inr (by simp [face, entry, atPhase, openingPhase, hp])
  · exact .inl (by simp [face, entry, atPhase, openingPhase, hp])

theorem Calm.ask {g : Episode} (hg : Calm g) (id : ServerId) :
    Calm { g with unstopped := g.unstopped.erase id } :=
  ⟨hg.panics, hg.failures, by simp [hg.unstopped]⟩

theorem Launched.ask {g : Episode} {f : Face} {id : ServerId} (hg : Launched id g f) :
    Cleared { g with unstopped := g.unstopped.erase id } f :=
  ⟨⟨hg.panics, hg.failures, by simp [hg.unstopped]⟩, hg.handle⟩

theorem Cleared.launch {g : Episode} {f : Face} (hg : Cleared g f) (s : Sequence) (id : ServerId) :
    Launched id (g.reply (.launching s) (.server id)) f :=
  ⟨hg.panics, hg.failures, by simp [Episode.reply, hg.unstopped], hg.handle⟩

/-- The end of a stop is not written down. -/
theorem reply_stopped {g : Episode} {stage : Stage} {r : Reply} {o : Option Fault}
    (hr : r.stopped? = some o) : g.reply stage r = g := by
  cases r with
  | done | fault => rfl
  | _ => simp [Reply.stopped?] at hr

theorem tell_stopNotice (g : Episode) (id : ServerId) (elapsed : Nat) (o : Option Fault) :
    g.tell (stopNotice id elapsed o) = g := by
  cases o <;> rfl

theorem tell_stateChanged {g : Episode} {n : Notice} (hn : n.kind = .stateChanged) :
    g.tell n = g := by
  simp [Episode.tell, hn]

theorem move_holds {now : Nat} {g : Episode} {c c' : Coordinator} {p p' : Point} {ms : List Moment}
    (hm : Move now c p ms c' p') (h : Holds p g c.face) :
    episodes.Passes now ms g fun g' => Holds p' g' c'.face := by
  cases hm with
  | take hq => exact ⟨trivial, rfl, rfl, rfl⟩
  | stayReady | keepRunning => exact Calm.ending h _ _
  | rest | activate | restart | reconfigure | stop | yieldCaches | spareDependent | keepCaches
  | keepEnvironment | keepCache | leave => exact h
  | enter trigger answer =>
    exact .shift trivial (fun _ _ => trivial) (fun _ _ hn => tell_stateChanged hn)
      (InTransition.entered h trigger)
  | stopDependent | resumeDependent | removeCache => exact ⟨trivial, h⟩
  | gone p hh =>
    cases p with
    | sequence s => exact ⟨h.toCalm, hh⟩
    | shutdown | yielding => exact h
  | @drop id p hh =>
    cases p with
    | sequence s => exact ⟨trivial, trivial, h.toCalm.ask id, rfl⟩
    | shutdown | yielding => exact ⟨trivial, trivial, Calm.ask h id⟩
  | clearCaches | prepareEnvironment | launch | awaitReady => exact ⟨trivial, trivial, h⟩
  | stopUnready s id reason => exact ⟨trivial, Launched.ask h⟩
  | succeed s id =>
    rw [Watch.passes_append]
    refine .shift trivial (fun _ _ => trivial) (fun _ _ hn => tell_stateChanged hn) ⟨trivial, ?_⟩
    intro stage hp
    have hn : [stage] = [] := hp.symm.trans h.panics
    simp at hn
  | fail s e =>
    rw [Watch.passes_append]
    exact .shift trivial (fun _ _ => trivial) (fun _ _ hn => tell_stateChanged hn)
      ⟨trivial, Failing.ending h⟩
  | close r =>
    exact .shift trivial (fun _ _ => trivial) (fun _ _ hn => tell_stateChanged hn)
      (Calm.ending h r _)
  | finish r hr => exact ⟨h, trivial⟩
  | dependentStopped | dependentFailed | cleared | prepared | gotReady | notReady | overdue
  | cacheRemoved =>
    obtain ⟨g₀, hw, rfl⟩ := h
    exact hw
  | launched s id =>
    obtain ⟨g₀, hw, rfl⟩ := h
    exact Cleared.launch hw s id
  | stopped p id since hr =>
    obtain ⟨g₀, hw, rfl⟩ := h
    rw [reply_stopped hr]
    have ha : Holds p.next g₀ c.face := by
      cases p <;> exact hw
    refine ⟨trivial, ?_⟩
    rw [show episodes.note g₀ (.did now c (.notice (stopNotice id (now - since) _))) = g₀ from
      tell_stopNotice g₀ id _ _]
    exact ha
  | callFails e hstage =>
    obtain ⟨g₀, hw, rfl⟩ := h
    rcases hstage with rfl | rfl | rfl <;> exact Cleared.failing hw e
  | unreadyStopped s id reason hr =>
    obtain ⟨g₀, hw, rfl⟩ := h
    rw [reply_stopped hr]
    exact Cleared.failing hw reason
  | dependentResumed s result hr =>
    obtain ⟨g₀, hw, rfl⟩ := h
    rw [reply_stopped hr]
    exact hw
  | sequencePanics payload hstage =>
    obtain ⟨g₀, hw, rfl⟩ := h
    exact hw.panics payload hstage
  | operationPanics payload hstage =>
    obtain ⟨g₀, hw, rfl⟩ := h
    exact hw.breaks payload hstage

theorem signal_holds {now : Nat} {g : Episode} {c : Coordinator} {s : Signal}
    (hs : s.Fits Stage.accepts c) (h : Holds c.point g c.face) :
    episodes.law g (.heard now c s) ∧
      Holds (s.target c) (episodes.note g (.heard now c s)) (s.effect c).face := by
  refine ⟨trivial, ?_⟩
  cases s with
  | reply r =>
    obtain ⟨stage, hstage, hr⟩ := hs
    simp only [point, hstage] at h
    simp only [Signal.target, hstage, episodes, Episode.note]
    exact ⟨g, h, rfl⟩
  | wake => exact at_halt (P := fun p => Holds p g c.face) h id
  | submit | setDependent | down => exact h

theorem run_holds {name toolName : String} {settings : Settings} {h : Story} {c : Coordinator}
    (hr : Run Stage.accepts (fresh name toolName settings) h c) :
    episodes.Kept h ∧ c.point.Sound c ∧ Holds c.point (episodes.read h) c.face :=
  hr.upheld (fun _ _ hs => hs) (fun _ hs h => signal_holds hs h) (fun _ hm h => move_holds hm h)
    (sound_fresh name toolName settings) trivial

end Episode

theorem Aftermath.contained_iff {g : Episode} {result : Except Fault Answer} {c : Coordinator}
    {after : Story} {stage : Stage} (ha : Aftermath g result c.face stage)
    (hs : stage.isErrand = true)
    (hnext : ∀ ticket op rest, c.queue.waiting = (ticket, op) :: rest →
      ∃ now seen after', after = .did now seen (.started ticket op) :: after') :
    Contained g result c after ↔ stage.asksTool = true := by
  cases stage with
  | stoppingDependent s =>
    refine ⟨fun hc => ?_, fun ht => by simp [Stage.asksTool] at ht⟩
    rcases ha.phase with hp | hp <;> simp [hc.phase] at hp
  | clearing | preparing | launching => exact ⟨fun _ => rfl, fun _ => ⟨ha.1, ha.2, hnext⟩⟩
  | awaitingReady s id =>
    refine ⟨fun hc => ?_, fun ht => by simp [Stage.asksTool] at ht⟩
    have hu : [id] = [] := ha.2.symm.trans hc.unstopped
    simp at hu
  | _ => simp [Stage.isErrand] at hs

/-! ## What the caller is told -/

/-- The caller is told this in this turn. -/
def Turn.Tells (t : Turn) (ticket : Ticket) (result : Except Fault Answer) : Prop :=
  ∃ seen, ⟨.finished ticket result, seen⟩ ∈ t.moments

/-- The caller is told this in this turn, or in the one in which the dependent has answered. -/
def Turn.WillTell (t : Turn) (ticket : Ticket) (result : Except Fault Answer) : Prop :=
  t.Tells ticket result ∨
    ∃ s, t.state.stage = some (.resumingDependent s result) ∧
      ∀ now r, (Stage.resumingDependent s result).accepts r = true → r.isPanic = false →
        (t.state.hear now (.reply r)).Tells ticket result

section
variable {now : Nat} {c c' : Coordinator} {ms : List Moment} {ticket : Ticket}
variable {result : Except Fault Answer}

theorem Trail.finish_tells (h : Trail now c (.finish result) ms c' c'.point)
    (hr : c.queue.running = some ticket) : ∃ seen, ⟨.finished ticket result, seen⟩ ∈ ms := by
  obtain ⟨_, _, _, _, hm, -, rfl⟩ := h.begins rfl
  cases hm with
  | finish _ hr' =>
    obtain rfl := Option.some.inj (hr.symm.trans hr')
    exact ⟨c.released, by simp⟩

/-- Who leaves a sequence tells its result, unless the dependent has to be started again. -/
theorem Trail.leave_tells {s : Sequence} (h : Trail now c (.leave s result) ms c' c'.point)
    (hr : c.queue.running = some ticket) :
    (∃ seen, ⟨.finished ticket result, seen⟩ ∈ ms) ∨
      c'.stage = some (.resumingDependent s result) ∧ c'.queue.running = some ticket := by
  obtain ⟨c₁, p₁, ms₁, ms₂, hm, ht, rfl⟩ := h.begins rfl
  cases hm with
  | resumeDependent =>
    generalize c'.point = p' at ht
    cases ht with
    | refl => exact .inr ⟨rfl, hr⟩
    | move hm' => cases hm'
  | leave => exact .inl (ht.finish_tells hr)

theorem Trail.fail_tells {s : Sequence} {e : Fault} (h : Trail now c (.fail s e) ms c' c'.point)
    (hr : c.queue.running = some ticket) :
    (∃ seen, ⟨.finished ticket (.error e), seen⟩ ∈ ms) ∨
      c'.stage = some (.resumingDependent s (.error e)) ∧ c'.queue.running = some ticket := by
  obtain ⟨c₁, p₁, ms₁, ms₂, hm, ht, rfl⟩ := h.begins rfl
  cases hm with
  | fail =>
    rcases ht.leave_tells hr with ⟨seen, hmem⟩ | hw
    · exact .inl ⟨seen, List.mem_append_right _ hmem⟩
    · exact .inr hw

/-- A dependent that answers, well or not, does not change what the caller is told. -/
theorem Trail.resumed_tells {s : Sequence} {r : Reply}
    (h : Trail now c (.answered (.resumingDependent s result) r) ms c' c'.point)
    (hr : c.queue.running = some ticket) (hp : r.isPanic = false) :
    ∃ seen, ⟨.finished ticket result, seen⟩ ∈ ms := by
  obtain ⟨c₁, p₁, ms₁, ms₂, hm, ht, rfl⟩ := h.begins rfl
  generalize hs : Stage.resumingDependent s result = stage at hm
  cases hm with
  | dependentResumed s' result' ho =>
    obtain ⟨-, rfl⟩ := Stage.resumingDependent.inj hs
    exact ht.finish_tells hr
  | stopped p => cases p <;> simp [Purpose.stage] at hs
  | callFails f hf => rcases hf with rfl | rfl | rfl <;> simp at hs
  | sequencePanics | operationPanics => simp [Reply.isPanic] at hp
  | _ => simp at hs

/-- After a panic nothing is waited for but the dependent. -/
theorem Trail.panicked_tells {stage : Stage} {payload : String}
    (h : Trail now c (.answered stage (.panicked payload)) ms c' c'.point)
    (hr : c.queue.running = some ticket) :
    (∃ seen, ⟨.finished ticket (.error (.operationPanicked payload)), seen⟩ ∈ ms) ∨
      ∃ s, c'.stage = some (.resumingDependent s (.error (.operationPanicked payload))) ∧
        c'.queue.running = some ticket := by
  obtain ⟨c₁, p₁, ms₁, ms₂, hm, ht, rfl⟩ := h.begins rfl
  generalize hp : Reply.panicked payload = r at hm
  cases hm with
  | stopped p id since ho | unreadyStopped s id reason ho | dependentResumed s result ho =>
    subst hp
    simp [Reply.stopped?] at ho
  | sequencePanics payload' =>
    obtain rfl := Reply.panicked.inj hp
    exact (ht.fail_tells hr).imp_right fun hw => ⟨_, hw⟩
  | operationPanics payload' =>
    obtain rfl := Reply.panicked.inj hp
    exact .inl (ht.finish_tells hr)
  | _ => simp at hp

/-- The caller of an operation that panics is told so. -/
theorem willTell_of_panic {stage : Stage} (now : Nat) (payload : String) (hc : c.point.Sound c)
    (hs : c.stage = some stage) (ha : stage.accepts (.panicked payload) = true)
    (hr : c.queue.running = some ticket) :
    (c.hear now (.reply (.panicked payload))).WillTell ticket (.error (.operationPanicked payload)) := by
  have ht := reply_trail now hc hs ha
  have hsound : (Point.answered stage (.panicked payload)).Sound c := by
    simp [Point.Sound, hr]
  rcases ht.panicked_tells hr with hm | ⟨s, hs', hr'⟩
  · exact .inl hm
  · refine .inr ⟨s, hs', fun now' r ha' hp => ?_⟩
    exact (reply_trail now' (ht.sound hsound) hs' ha').resumed_tells hr' hp

end

/-- When one call of a start sequence panics, the caller is told so, and the panic is contained if the
call was made to the tool or the launcher, and only then. A dependent leaves a sequence that is
broken off, and a new server that panics is left alone. -/
theorem panic_contained_iff {name toolName : String} {settings : Settings} {h : Story}
    {c : Coordinator} (hr : Run Stage.accepts (fresh name toolName settings) h c) :
    (∀ stage now payload, c.stage = some stage → stage.isErrand = true →
      ∃ ticket, c.queue.running = some ticket ∧
        (c.hear now (.reply (.panicked payload))).WillTell ticket
          (.error (.operationPanicked payload))) ∧
    ∀ before after now seen ticket result stage,
      h = before ++ .did now seen (.finished ticket result) :: after →
      (episodes.read before).panics = [stage] → stage.isErrand = true →
        (Contained (episodes.read before) result seen after ↔ stage.asksTool = true) ∧
          Aftermath (episodes.read before) result seen.face stage := by
  obtain ⟨hk, hc, -⟩ := Episode.run_holds hr
  constructor
  · intro stage now payload hstage hs
    have hw := hc
    simp only [point, hstage] at hw
    obtain ⟨ticket, hticket⟩ := Option.isSome_iff_exists.mp hw.2
    exact ⟨ticket, hticket, willTell_of_panic now payload hc hstage (Stage.accepts_panic hs _) hticket⟩
  · intro before after now seen ticket result stage hh hp hs
    have ha : Aftermath (episodes.read before) result seen.face stage := hk before _ after hh stage hp
    exact ⟨ha.contained_iff hs fun _ _ _ hw => hr.next_started hh hw, ha⟩

/-- The launcher panics while a second operation waits. -/
theorem panic_contained_iff_launcher : ∃ h c before after now seen ticket result stage,
    Run Stage.accepts (fresh "main" "rcc" {}) h c ∧
      h = before ++ .did now seen (.finished ticket result) :: after ∧
      (episodes.read before).panics = [stage] ∧ stage.isErrand = true ∧
      (Contained (episodes.read before) result seen after ↔ stage.asksTool = true) ∧
      Aftermath (episodes.read before) result seen.face stage := by
  have run := (.start : Run Stage.accepts (fresh "main" "rcc" {}) [] _)
    |>.hear 0 (.submit .activate) trivial
    |>.hear 0 (.submit .stop) trivial
    |>.hear 0 .wake trivial
    |>.hear 2 (.reply (.panicked "boom")) ⟨_, rfl, rfl⟩
  refine ⟨_, _, _, _, _, _, _, _, _, run, (List.take_append_drop 12 _).symm, rfl, rfl, ?_⟩
  exact (panic_contained_iff run).2 _ _ _ _ _ _ _ (List.take_append_drop 12 _).symm rfl rfl

end Coordinator

end Supervisor
