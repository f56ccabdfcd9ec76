import Mathlib.Data.List.Induction
import Supervisor.Proofs.Coordinator.Progress
/-!
# Calls in blocks

The calls that go to the servers, the tool and the launcher come in blocks, one for each operation
and in the order in which the operations were submitted. What a block consists of is told here by
functions that know nothing of stages, of the queue or of the time at which callers come.
-/
namespace Supervisor

/-- The calls of a part of a start sequence, and the server that is ready after them. -/
structure Attempt where
  calls : List Call := []
  server : Option ServerId := none

def Attempt.after (x : Call) (a : Attempt) : Attempt := { a with calls := x :: a.calls }

namespace Company
variable (b : Company)

/-- Zero seconds are no limit. A server that takes exactly as long as the limit allows is in time. -/
def becomesReady (seconds : Nat) : Bool :=
  b.ready.2.isOk && (seconds = 0 || b.ready.1 ≤ seconds * 1000)

def awaited (s : ServerSettings) (id : ServerId) : Attempt :=
  if b.becomesReady s.readyTimeoutSeconds then { server := some id } else { calls := [.stopServer id] }

def launched (s : ServerSettings) : Attempt :=
  match b.launch.2 with
  | .ok id =>
    (b.awaited s id).after (.awaitReady id
      (if s.readyTimeoutSeconds = 0 then none else some (.ofSeconds s.readyTimeoutSeconds)))
  | .error _ => {}

def launching (s : ServerSettings) (env : Table String) : Attempt :=
  (b.launched s).after (.launch ⟨s, env⟩)

def prepared (s : ServerSettings) : Attempt :=
  match b.prepare.2 with
  | .ok env => b.launching s env
  | .error _ => {}

def preparing (s : Settings) : Attempt :=
  if s.environment.enabled then (b.prepared s.server).after (.prepareEnvironment s.environment)
  else b.launching s.server []

def cleared (s : Settings) : Attempt :=
  match b.clear.2 with
  | .ok _ => b.preparing s
  | .error _ => {}

/-- What follows when the old server is out of the way. -/
def starting (s : Settings) (clears : Bool) : Attempt :=
  if clears && s.environment.enabled then (b.cleared s).after (.clearCaches s.environment)
  else b.preparing s

end Company

/-- What one operation leaves to the next. -/
structure Standing where
  settings : Settings
  phase : Phase := .uninitialized
  handle : Option ServerId := none

namespace Standing

/-- The calls that stop the server that is held. -/
def stops (s : Standing) : List Call := s.handle.toList.map .stopServer

def settle (s : Standing) : Option ServerId → Standing
  | some id => { s with phase := .ready, handle := some id }
  | none => { s with phase := .failed }

def restart (s : Standing) (b : Company) (clears : Bool) : List Call × Standing :=
  (s.stops ++ (b.starting s.settings clears).calls,
    { s with handle := none }.settle (b.starting s.settings clears).server)

def close (s : Standing) : List Call × Standing :=
  (s.stops, { s with phase := .uninitialized, handle := none })

end Standing

/-- The calls of an operation, and what it leaves; `alive` tells whether the server that is held is
running when the operation is started. -/
def Operation.block (b : Company) (alive : Bool) (s : Standing) : Operation → List Call × Standing
  | .activate => if s.phase = .ready ∧ alive = true then ([], s) else s.restart b false
  | .restart trigger => s.restart b (trigger = .clearCaches)
  | .configure settings =>
    if s.settings.requiresRestart settings = true ∧ s.phase ≠ .uninitialized then
      { s with settings }.restart b false
    else ([], { s with settings })
  | .stop | .yieldCaches => s.close

namespace Coordinator

/-- One block for each operation, and what the last of them leaves. -/
def blocks (b : Ticket → Company) : Standing → List Start → List (List Call) × Standing
  | s, [] => ([], s)
  | s, x :: xs =>
    let block := x.op.block (b x.ticket) x.alive s
    let rest := blocks b block.2 xs
    (block.1 :: rest.1, rest.2)

theorem blocks_snoc (b : Ticket → Company) (s : Standing) (xs : List Start) (x : Start) :
    blocks b s (xs ++ [x]) =
      ((blocks b s xs).1 ++ [(x.op.block (b x.ticket) x.alive (blocks b s xs).2).1],
        (x.op.block (b x.ticket) x.alive (blocks b s xs).2).2) := by
  induction xs generalizing s with
  | nil => rfl
  | cons y ys ih => simp [blocks, ih]

/-! ## What is still to come -/

def standing (c : Coordinator) : Standing := ⟨c.settings, c.phase, c.handle⟩

/-- An attempt that begins now. -/
def ahead (c : Coordinator) (a : Attempt) : List Call × Standing :=
  (a.calls, c.standing.settle a.server)

namespace Blocks

/-- The old server has to be stopped first. -/
def replacing (b : Company) (c : Coordinator) (s : Sequence) : List Call × Standing :=
  (c.standing.stops ++ (b.starting s.settings s.trigger.clearsCaches).calls,
    { c.standing with handle := none }.settle
      (b.starting s.settings s.trigger.clearsCaches).server)

def closing (c : Coordinator) : List Call × Standing :=
  ([], { c.standing with phase := .uninitialized })

/-- The calls that will still be made from a stage on, and what the operation will leave. -/
def awaited (b : Company) (c : Coordinator) : Stage → List Call × Standing
  | .stoppingDependent s => replacing b c s
  | .stoppingOld s _ _ => c.ahead (b.starting s.settings s.trigger.clearsCaches)
  | .clearing s => c.ahead (b.cleared s.settings)
  | .preparing s => c.ahead (b.prepared s.settings.server)
  | .launching s => c.ahead (b.launched s.settings.server)
  | .awaitingReady s id => c.ahead (b.awaited s.settings.server id)
  | .stoppingUnready _ _ _ => c.ahead {}
  | .resumingDependent _ _ => ([], c.standing)
  | .shuttingDown _ _ | .yielding _ _ _ | .removingCache _ => closing c

def outlook (b : Company) (c : Coordinator) : Point → List Call × Standing
  | .idle | .looking | .leave _ _ | .finish _ => ([], c.standing)
  | .begun op => op.block b c.hasLiveServer c.standing
  | .entering trigger _ => c.standing.restart b trigger.clearsCaches
  | .entered s | .dropping (.sequence s) => replacing b c s
  | .dropping .shutdown | .dropping (.yielding _) => c.standing.close
  | .clear s => c.ahead (b.starting s.settings s.trigger.clearsCaches)
  | .prepare s => c.ahead (b.preparing s.settings)
  | .launch s env => c.ahead (b.launching s.settings.server env)
  | .awaitReady s id =>
    c.ahead ((b.awaited s.settings.server id).after (.awaitReady id s.settings.server.readyTimeout))
  | .stopUnready _ id _ => c.ahead { calls := [.stopServer id] }
  | .succeed _ id => c.ahead { server := some id }
  | .fail _ _ => c.ahead {}
  | .clearOwnCache _ | .close _ => closing c
  | .waiting stage | .answered stage _ => awaited b c stage

/-- A reply that has come is the one that was to be expected. -/
def Expected (b : Company) : Point → Prop
  | .answered stage r => r = (stage.reaction b).2
  | _ => True

/-- The calls that go outward in these moments. -/
def logged (ms : List Moment) : List Call :=
  ms.flatMap fun m =>
    match m.output with
    | .call x => if x.isOutward then [x] else []
    | _ => []

theorem logged_append (ms ms' : List Moment) : logged (ms ++ ms') = logged ms ++ logged ms' := by
  simp [logged]

theorem logged_shift (old : Phase) (c : Coordinator) : logged (shift old c) = [] := by
  simp only [shift]
  split <;> rfl

theorem reaction_ready (b : Company) (s : Sequence) (id : ServerId) :
    (Stage.reaction b (.awaitingReady s id)).2 = .done ↔
      b.becomesReady s.settings.server.readyTimeoutSeconds = true := by
  simp only [Stage.reaction, inTime, Company.becomesReady, ServerSettings.readyLimit]
  by_cases hz : s.settings.server.readyTimeoutSeconds = 0
  · cases hr : b.ready.2 <;> simp [hz, hr, Reply.returned, Except.isOk, Except.toBool]
  · by_cases hl : b.ready.1 ≤ s.settings.server.readyTimeoutSeconds * 1000
    · cases hr : b.ready.2 <;> simp [hz, hl, hr, Reply.returned, Except.isOk, Except.toBool]
    · simp [hz, hl]

theorem settle_phase (s : Standing) (p : Phase) (o : Option ServerId) :
    { s with phase := p }.settle o = s.settle o := by
  cases o <;> rfl

theorem outlook_begin {b : Company} {now : Nat} {c c' : Coordinator} {op : Operation} {p' : Point}
    {ms : List Moment} (hm : Move now c (.begun op) ms c' p') :
    outlook b c (.begun op) = (logged ms ++ (outlook b c' p').1, (outlook b c' p').2) := by
  cases hm with
  | stayReady hr hl => exact if_pos ⟨hr, hl⟩
  | activate hc => exact if_neg hc
  | restart t =>
    simp only [outlook, Operation.block, t.clearsCaches_eq_decide]
    rfl
  | stop | yieldCaches => rfl
  | keepRunning hs =>
    refine if_neg ?_
    rintro ⟨hr, hp⟩
    rcases hs with hs | hs
    · exact Bool.false_ne_true (hs.symm.trans hr)
    · exact hp hs
  | reconfigure hr hu => exact if_pos ⟨hr, hu⟩

theorem outlook_dropping {b : Company} {now : Nat} {c c' : Coordinator} {p : Purpose} {p' : Point}
    {ms : List Moment} (hm : Move now c (.dropping p) ms c' p') :
    outlook b c (.dropping p) = (logged ms ++ (outlook b c' p').1, (outlook b c' p').2) := by
  cases hm with
  | gone p hh =>
    cases p <;>
      simp [outlook, replacing, closing, Standing.close, Standing.stops, Purpose.next, ahead,
        standing, hh, logged]
  | @drop id p hh =>
    have hn : c.standing.stops = [.stopServer id] := by
      simp [Standing.stops, standing, hh]
    cases p with
    | sequence s =>
      simp only [outlook, replacing, hn]
      rfl
    | shutdown | yielding =>
      simp only [outlook, Standing.close, hn]
      rfl

/-- A reply decides which of the calls that were possible will be made. -/
theorem outlook_answered {b : Company} {now : Nat} {c c' : Coordinator} {stage : Stage} {r : Reply}
    {p' : Point} {ms : List Moment} (hm : Move now c (.answered stage r) ms c' p')
    (he : r = (stage.reaction b).2) :
    awaited b c stage = (logged ms ++ (outlook b c' p').1, (outlook b c' p').2) := by
  cases hm with
  | dependentStopped | dependentFailed | cacheRemoved | unreadyStopped | dependentResumed => rfl
  | stopped p => cases p <;> rfl
  | cleared s =>
    cases hc : b.clear.2 with
    | ok u =>
      simp only [awaited, Company.cleared, hc]
      rfl
    | error e => simp [Stage.reaction, hc, Reply.returned] at he
  | prepared s env =>
    cases hc : b.prepare.2 with
    | ok env' =>
      simp only [Stage.reaction, Prod.map_snd, hc, Reply.returned, Reply.environment.injEq] at he
      simp only [awaited, Company.prepared, hc, he]
      rfl
    | error e => simp [Stage.reaction, hc, Reply.returned] at he
  | launched s id =>
    cases hc : b.launch.2 with
    | ok id' =>
      simp only [Stage.reaction, Prod.map_snd, hc, Reply.returned, Reply.server.injEq] at he
      simp only [awaited, Company.launched, hc, he]
      rfl
    | error e => simp [Stage.reaction, hc, Reply.returned] at he
  | gotReady s id =>
    have hb := (reaction_ready b s id).mp he.symm
    simp only [awaited, Company.awaited, hb, if_true]
    rfl
  | notReady s id f =>
    have hb : ¬ b.becomesReady s.settings.server.readyTimeoutSeconds = true := by
      intro hb
      rw [(reaction_ready b s id).mpr hb] at he
      simp at he
    simp only [awaited, Company.awaited, hb]
    rfl
  | overdue s id =>
    have hb : ¬ b.becomesReady s.settings.server.readyTimeoutSeconds = true := by
      intro hb
      rw [(reaction_ready b s id).mpr hb] at he
      simp at he
    simp only [awaited, Company.awaited, hb]
    rfl
  | callFails f hs =>
    rcases hs with rfl | rfl | rfl
    · cases hc : b.clear.2 with
      | ok u => simp [Stage.reaction, hc, Reply.returned] at he
      | error e =>
        simp only [awaited, Company.cleared, hc]
        rfl
    · cases hc : b.prepare.2 with
      | ok u => simp [Stage.reaction, hc, Reply.returned] at he
      | error e =>
        simp only [awaited, Company.prepared, hc]
        rfl
    · cases hc : b.launch.2 with
      | ok u => simp [Stage.reaction, hc, Reply.returned] at he
      | error e =>
        simp only [awaited, Company.launched, hc]
        rfl
  | sequencePanics | operationPanics =>
    have hn := stage.isPanic_reaction b
    rw [← he] at hn
    simp [Reply.isPanic] at hn

theorem outlook_move {b : Company} {now : Nat} {c c' : Coordinator} {p p' : Point}
    {ms : List Moment} (hm : Move now c p ms c' p') (hp : p ≠ .looking) (he : Expected b p) :
    outlook b c p = (logged ms ++ (outlook b c' p').1, (outlook b c' p').2) := by
  cases p with
  | looking => exact (hp rfl).elim
  | begun op => exact outlook_begin hm
  | dropping p => exact outlook_dropping hm
  | answered stage r => exact outlook_answered hm he
  | entering trigger answer =>
    cases hm with
    | enter =>
      have hs : ∀ o, { (c.entry trigger).standing with handle := none }.settle o =
          { c.standing with handle := none }.settle o := fun o =>
        settle_phase { c.standing with handle := none } _ o
      rw [logged_shift]
      simp only [outlook, replacing, Standing.restart, hs]
      rfl
  | clear s =>
    cases hm with
    | clearCaches hs =>
      simp only [outlook, Company.starting, hs, if_true]
      rfl
    | keepCaches hs =>
      simp only [outlook, Company.starting, hs, Bool.false_eq_true, if_false]
      rfl
  | prepare s =>
    cases hm with
    | prepareEnvironment hs =>
      simp only [outlook, Company.preparing, hs, if_true]
      rfl
    | keepEnvironment hs =>
      simp only [outlook, Company.preparing, hs, Bool.false_eq_true, if_false]
      rfl
  | succeed | fail =>
    cases hm
    rw [logged_append, logged_shift]
    rfl
  | close r =>
    cases hm
    rw [logged_shift]
    rfl
  | idle | waiting => cases hm
  | _ => cases hm <;> rfl

/-! ## The journal of a run -/

/-- The calls that were made and those that are still to come are the blocks of the operations that
were started. -/
structure Holds (b : Ticket → Company) (s : Standing) (p : Point) (g : Journal) (c : Coordinator) :
    Prop where
  expected : Expected (c.company b) p
  calls : g.calls ++ (outlook (c.company b) c p).1 = (blocks b s g.starts).1.flatten
  standing : (outlook (c.company b) c p).2 = (blocks b s g.starts).2

theorem expected_move {b : Company} {now : Nat} {c c' : Coordinator} {p p' : Point}
    {ms : List Moment} (hm : Move now c p ms c' p') : Expected b p' := by
  cases hm with
  | gone p | stopped p => cases p <;> trivial
  | _ => trivial

theorem passes_journals {now : Nat} {g : Journal} {P : Journal → Prop} {ms : List Moment}
    (hms : ∀ m ∈ ms, m.output.isAside = true)
    (hP : ∀ n, P { g with calls := g.calls ++ logged ms, asked := n }) :
    journals.Passes now ms g P := by
  induction ms generalizing g with
  | nil =>
    have hn := hP g.asked
    simp only [logged, List.flatMap_nil, List.append_nil] at hn
    exact hn
  | cons m ms ih =>
    obtain ⟨o, seen⟩ := m
    have ha := hms ⟨o, seen⟩ (by simp)
    refine ⟨trivial, ih (fun m hm => hms m (by simp [hm])) fun n => ?_⟩
    have hn := hP n
    cases o with
    | started | finished => simp [Output.isAside] at ha
    | notice | phaseSet => simpa [journals, Journal.note, logged] using hn
    | call x => simpa [journals, Journal.note, logged, List.append_assoc] using hn

variable {b : Ticket → Company} {s : Standing}

theorem move_holds {now : Nat} {g : Journal} {c c' : Coordinator} {p p' : Point} {ms : List Moment}
    (hm : Move now c p ms c' p') (h : Holds b s p g c) :
    journals.Passes now ms g fun g' => Holds b s p' g' c' := by
  by_cases hp : p = .looking
  · subst hp
    cases hm with
    | @take op queue hq =>
      have hcalls : g.calls = (blocks b s g.starts).1.flatten := by
        simpa [outlook] using h.calls
      have hs : c.standing = (blocks b s g.starts).2 := h.standing
      refine ⟨trivial, trivial, ?_, ?_⟩
      · simp only [journals, Journal.note, blocks_snoc, ← hs, hcalls]
        rw [List.flatten_append, List.flatten_singleton]
        rfl
      · simp only [journals, Journal.note, blocks_snoc, ← hs]
        rfl
    | rest hq => exact ⟨trivial, h.calls, h.standing⟩
  · have ho := outlook_move hm hp h.expected
    have hcalls := h.calls
    have hstanding := h.standing
    rw [ho] at hcalls hstanding
    rw [← List.append_assoc] at hcalls
    rcases hm.queue with ⟨_, hl, _⟩ | ⟨hl, _⟩ | ⟨ticket, r, _, rfl, _, rfl⟩ | ⟨_, _, hq, hms⟩
    · exact (hp hl).elim
    · exact (hp hl).elim
    · refine ⟨trivial, trivial, ?_, hstanding⟩
      simpa [logged, journals, Journal.note, outlook] using hcalls
    · have hc : c'.company b = c.company b := by
        simp only [company, hq]
      exact passes_journals hms fun n =>
        ⟨expected_move hm, by rw [hc]; exact hcalls, by rw [hc]; exact hstanding⟩

theorem awaited_congr {b : Company} {c c' : Coordinator} (hs : c'.standing = c.standing)
    (stage : Stage) : awaited b c' stage = awaited b c stage := by
  cases stage <;> simp only [awaited, replacing, closing, ahead, hs]

theorem holds_aside {g : Journal} {c c' : Coordinator} (h : Holds b s c.point g c)
    (hs : c'.standing = c.standing) (hq : c'.queue.running = c.queue.running) :
    Holds b s c.point g c' := by
  have hc : c'.company b = c.company b := by
    simp only [company, hq]
  cases hp : c.stage with
  | none =>
    simp only [point, hp] at h ⊢
    exact ⟨trivial, h.calls, hs.trans h.standing⟩
  | some stage =>
    simp only [point, hp] at h ⊢
    have ha : awaited (c'.company b) c' stage = awaited (c.company b) c stage := by
      rw [hc, awaited_congr hs]
    refine ⟨trivial, ?_, ?_⟩
    · simp only [outlook, ha]
      exact h.calls
    · simp only [outlook, ha]
      exact h.standing

theorem signal_holds {now : Nat} {g : Journal} {c : Coordinator} {x : Signal}
    (hx : x.Fits Stage.accepts c) (hb : Heeded b g (.heard now c x)) (h : Holds b s c.point g c) :
    journals.law g (.heard now c x) ∧
      Holds b s (x.target c) (journals.note g (.heard now c x)) (x.effect c) := by
  refine ⟨trivial, ?_⟩
  cases x with
  | submit op => exact holds_aside h rfl (Dispatcher.running_submit _ _)
  | wake =>
    exact at_halt (P := fun p => Holds b s p g c) h fun hi => ⟨trivial, hi.calls, hi.standing⟩
  | reply r =>
    obtain ⟨stage, hstage, -⟩ := hx
    have hr := hb stage hstage
    simp only [point, hstage] at h
    simp only [Signal.target, hstage]
    exact ⟨(Prod.mk.inj hr).2, h.calls, h.standing⟩
  | setDependent d => exact holds_aside h rfl rfl
  | down ids => exact holds_aside h rfl rfl

theorem run_holds {name toolName : String} {settings : Settings} {h : Story} {c : Coordinator}
    (hr : RunIn b (fresh name toolName settings) h c) :
    journals.Kept h ∧ c.point.Sound c ∧ Holds b { settings } c.point (journals.read h) c :=
  hr.run.upheld_under (fun _ _ hs => hs) (fun _ hx hrule ha => signal_holds hx hrule ha)
    (fun _ hm ha => move_holds hm ha) (sound_fresh name toolName settings) ⟨trivial, rfl, rfl⟩ hr.heeds

/-- The journal and the line of operations tell the same. -/
theorem starts_eq_started (h : Story) :
    (journals.read h).starts.map (fun x => (x.ticket, x.op)) = (lineups.read h).started := by
  induction h using List.reverseRecOn with
  | nil => rfl
  | append_singleton h e ih =>
    rw [Watch.read_snoc, Watch.read_snoc]
    cases e with
    | heard now c x => cases x <;> exact ih
    | did now c o => cases o <;> simp [journals, Journal.note, lineups, Lineup.note] <;> exact ih

end Blocks

/-- The calls of a story are the blocks of its operations. -/
structure InBlocks (b : Ticket → Company) (settings : Settings) (h : Story) (c : Coordinator) :
    Prop where
  /-- The operations come in the order in which they were submitted. -/
  order : (journals.read h).starts.map (fun x => (x.ticket, x.op)) ++ c.queue.waiting =
    numbered (lineups.read h).submitted
  /-- The block of the running operation may be incomplete. -/
  initial : (journals.read h).calls <+: (blocks b { settings } (journals.read h).starts).1.flatten
  complete : c.queue.running = none →
    (journals.read h).calls = (blocks b { settings } (journals.read h).starts).1.flatten

namespace Blocks

theorem inBlocks {name toolName : String} {settings : Settings} {h : Story} {c : Coordinator}
    {b : Ticket → Company} (hr : RunIn b (fresh name toolName settings) h c) :
    InBlocks b settings h c := by
  obtain ⟨-, hs, hh⟩ := run_holds hr
  refine ⟨?_, ⟨_, hh.calls⟩, ?_⟩
  · rw [starts_eq_started]
    exact hr.run.started_append_waiting
  · intro hn
    have hp : c.point = .idle := by
      cases hstage : c.stage with
      | none => simp only [point, hstage]
      | some stage => simp [point, hstage, Point.Sound, hn] at hs
    have hcalls := hh.calls
    rw [hp] at hcalls
    simpa [outlook] using hcalls

end Blocks

/-- In company that answers, the calls of a coordinator are one block after another, and in the end
each operation that was submitted has its block. -/
theorem calls_in_blocks {name toolName : String} {settings : Settings} {h : Story} {c : Coordinator}
    {b : Ticket → Company} (hr : RunIn b (fresh name toolName settings) h c) :
    InBlocks b settings h c ∧
      ∃ more c', RunIn b (fresh name toolName settings) (h ++ more) c' ∧
        InBlocks b settings (h ++ more) c' ∧
        (lineups.read (h ++ more)).submitted = (lineups.read h).submitted ∧
        c'.queue.running = none ∧ c'.queue.waiting = [] := by
  obtain ⟨more, c', hr', hq, hdone⟩ := hr.completes
  exact ⟨Blocks.inBlocks hr, more, c', hr', Blocks.inBlocks hr', hq, hdone⟩

/-- Each call takes some time, and the server is ready exactly when the limit has passed. -/
def slowCompany : Company where
  prepareDependent := (0, .ok false)
  stop := (1, .error (.stop "late"))
  clear := (2, .ok ())
  prepare := (3, .ok [("KEY", "value")])
  launch := (4, .ok "ls-1")
  ready := (60000, .ok ())
  stopUnready := (0, .ok ())
  finishDependent := (0, .ok ())
  removal := 0

/-- A cleaning of caches during which the server is told to stop. -/
theorem calls_in_blocks_slow_company : ∃ h c,
    RunIn (fun _ => slowCompany) (fresh "main" "rcc" { environment := { enabled := true } }) h c ∧
      (lineups.read h).submitted = [.restart .clearCaches, .stop] ∧
      (journals.read h).calls =
        [.clearCaches { enabled := true }, .prepareEnvironment { enabled := true },
          .launch ⟨{}, [("KEY", "value")]⟩, .awaitReady "ls-1" (some (.ofSeconds 60)),
          .stopServer "ls-1"] ∧
      InBlocks (fun _ => slowCompany) { environment := { enabled := true } } h c ∧
      ∃ more c', RunIn (fun _ => slowCompany)
          (fresh "main" "rcc" { environment := { enabled := true } }) (h ++ more) c' ∧
        InBlocks (fun _ => slowCompany) { environment := { enabled := true } } (h ++ more) c' ∧
        (lineups.read (h ++ more)).submitted = (lineups.read h).submitted ∧
        c'.queue.running = none ∧ c'.queue.waiting = [] := by
  have run := RunIn.start (fun _ => slowCompany)
      (fresh "main" "rcc" { environment := { enabled := true } })
    |>.hear 0 (.submit (.restart .clearCaches)) trivial trivial
    |>.hear 0 .wake trivial trivial
    |>.answer 2 .done rfl rfl
    |>.answer 5 (.environment [("KEY", "value")]) rfl rfl
    |>.hear 6 (.submit .stop) trivial trivial
    |>.answer 9 (.server "ls-1") rfl rfl
    |>.answer 60009 .done rfl rfl
  exact ⟨_, _, run, rfl, rfl, calls_in_blocks run⟩

end Coordinator

end Supervisor
