import Mathlib.Data.List.Induction
import Supervisor.Proofs.Coordinator.Lineup
import Supervisor.Proofs.Coordinator.Ownership
/-!
# Coordinators that have yielded

A coordinator that has stopped for the sake of another one has no server and stays so, through stops
and changes of its settings, until an operation is started that starts a server. It does not know how
long the other one needs.
-/
namespace Supervisor

namespace Operation

def yields : Operation → Bool
  | .yieldCaches => true
  | _ => false

def starts : Operation → Bool
  | .activate | .restart _ => true
  | _ => false

end Operation

/-- Does the operation that waits there only close down? -/
def Stage.closes : Stage → Bool
  | .shuttingDown _ _ | .yielding _ _ _ | .removingCache _ => true
  | _ => false

namespace Coordinator

structure Slumber where
  /-- The operation that was started last. -/
  current : Option (Ticket × Operation) := none
  ended : List (Ticket × Operation) := []
  /-- Has an operation been started that starts a server, since one has ended that yields? -/
  roused : Bool := false

namespace Slumber

def yielding (g : Slumber) : Bool := g.current.any (·.2.yields)

def hasYielded (g : Slumber) : Bool := g.ended.any (·.2.yields)

def asleep (g : Slumber) : Bool := g.hasYielded && !g.roused

def start (g : Slumber) (ticket : Ticket) (op : Operation) : Slumber :=
  { g with current := some (ticket, op), roused := g.roused || op.starts }

def finish (g : Slumber) : Slumber :=
  { g with ended := g.ended ++ g.current.toList, roused := g.roused && !g.yielding }

@[simp] theorem asleep_start (g : Slumber) (ticket : Ticket) (op : Operation) :
    (g.start ticket op).asleep = (g.asleep && !op.starts) := by
  simp [asleep, hasYielded, start, Bool.and_assoc]

@[simp] theorem asleep_finish (g : Slumber) : g.finish.asleep = (g.yielding || g.asleep) := by
  have hlast : g.current.toList.any (·.2.yields) = g.yielding := by
    cases hc : g.current <;> simp [yielding, hc]
  cases hy : g.yielding <;> simp [asleep, hasYielded, finish, hlast, hy]

def note (g : Slumber) : Happening → Slumber
  | .did _ _ (.started ticket op) => g.start ticket op
  | .did _ _ (.finished _ _) => g.finish
  | _ => g

end Slumber

/-- It is the operation that was started last which ends. -/
def slumbers : Watch Slumber where
  start := {}
  note := Slumber.note
  law g
    | .did _ _ (.finished ticket _) => ∃ op, g.current = some (ticket, op)
    | _ => True

/-! ## What holds at the points of a coordinator -/

namespace Slumber

/-- No start sequence goes on, and none is about to. -/
def isQuiet : Point → Bool
  | .begun op => !op.starts
  | .entering _ _ | .entered _ | .dropping (.sequence _) | .clear _ | .prepare _ | .launch _ _
  | .awaitReady _ _ | .stopUnready _ _ _ | .succeed _ _ | .fail _ _ | .leave _ _ => false
  | .waiting stage | .answered stage _ => stage.closes
  | _ => true

structure Down (c : Coordinator) : Prop where
  handle : c.handle = none
  phase : c.phase = .uninitialized

/-- Where the current operation is, it closes down or it has nothing to do with yielding. -/
def OnCourse : Point → Slumber → Coordinator → Prop
  | .idle | .looking | .dropping .shutdown | .dropping (.yielding _) => fun _ _ => True
  | .begun op => fun g _ => g.yielding = op.yields
  | .clearOwnCache _ | .close _ => fun _ c => c.handle = none
  | .finish _ => fun g c => g.yielding = true → Down c
  | .waiting stage => fun g c => if stage.closes then c.handle = none else g.yielding = false
  | .answered stage r => fun g c => (if stage.closes then c.handle = none else g.yielding = false) ∧
      serversReturn stage r = true
  | _ => fun g _ => g.yielding = false

structure Holds (p : Point) (g : Slumber) (c : Coordinator) : Prop where
  known : ∀ ticket, c.queue.running = some ticket → ∃ op, g.current = some (ticket, op)
  course : OnCourse p g c
  asleep : g.asleep = true → Down c ∧ isQuiet p = true

theorem Holds.awake {p : Point} {g : Slumber} {c : Coordinator} (h : Holds p g c)
    (hp : isQuiet p = false) : g.asleep = false := by
  cases ha : g.asleep with
  | false => rfl
  | true => exact absurd (h.asleep ha).2 (by simp [hp])

theorem move_on {now : Nat} {g : Slumber} {c c' : Coordinator} {p p' : Point} {ms : List Moment}
    (hm : Move now c p ms c' p') (hp : p ≠ .looking) (hp' : p' ≠ .looking) (h : Holds p g c) :
    OnCourse p' g c' ∧ (g.asleep = true → Down c' ∧ isQuiet p' = true) := by
  have hcourse := h.course
  cases hm with
  | take | rest => exact (hp rfl).elim
  | finish => exact (hp' rfl).elim
  | stayReady =>
    have hn : g.yielding = false := hcourse
    exact ⟨fun hy => by simp [hn] at hy, fun ha => by simp [h.awake rfl] at ha⟩
  | activate | restart => exact ⟨hcourse, fun ha => by simp [h.awake rfl] at ha⟩
  | keepRunning =>
    have hn : g.yielding = false := hcourse
    refine ⟨fun hy => by simp [hn] at hy, fun ha => ?_⟩
    exact ⟨⟨(h.asleep ha).1.handle, (h.asleep ha).1.phase⟩, rfl⟩
  | reconfigure hs hu =>
    -- Who sleeps is uninitialized, and new settings start nothing there.
    exact ⟨hcourse, fun ha => (hu (h.asleep ha).1.phase).elim⟩
  | stop | yieldCaches => exact ⟨trivial, fun ha => ⟨(h.asleep ha).1, rfl⟩⟩
  | enter | stopDependent | spareDependent | clearCaches | keepCaches | prepareEnvironment
  | keepEnvironment | launch | awaitReady | stopUnready | succeed | fail | resumeDependent =>
    exact ⟨hcourse, fun ha => by simp [h.awake rfl] at ha⟩
  | leave result hs =>
    have hn : g.yielding = false := hcourse
    exact ⟨fun hy => by simp [hn] at hy, fun ha => by simp [h.awake rfl] at ha⟩
  | gone p hh =>
    cases p with
    | sequence s => exact ⟨hcourse, fun ha => by simp [h.awake rfl] at ha⟩
    | shutdown | yielding => exact ⟨hh, fun ha => ⟨(h.asleep ha).1, rfl⟩⟩
  | drop p hh =>
    cases p with
    | sequence s => exact ⟨hcourse, fun ha => by simp [h.awake rfl] at ha⟩
    | shutdown | yielding => exact ⟨rfl, fun ha => ⟨⟨rfl, (h.asleep ha).1.phase⟩, rfl⟩⟩
  | removeCache => exact ⟨hcourse, fun ha => ⟨⟨hcourse, (h.asleep ha).1.phase⟩, rfl⟩⟩
  | keepCache => exact ⟨hcourse, fun ha => ⟨(h.asleep ha).1, rfl⟩⟩
  | close => exact ⟨fun _ => ⟨hcourse, rfl⟩, fun _ => ⟨⟨hcourse, rfl⟩, rfl⟩⟩
  | dependentStopped | dependentFailed | cleared | prepared | launched | gotReady | notReady | overdue
  | unreadyStopped => exact ⟨hcourse.1, fun ha => by simp [h.awake rfl] at ha⟩
  | stopped p =>
    cases p with
    | sequence s => exact ⟨hcourse.1, fun ha => by simp [h.awake rfl] at ha⟩
    | shutdown | yielding => exact ⟨hcourse.1, fun ha => ⟨(h.asleep ha).1, rfl⟩⟩
  | callFails f hstage =>
    rcases hstage with rfl | rfl | rfl <;>
      exact ⟨hcourse.1, fun ha => by simp [h.awake rfl] at ha⟩
  | dependentResumed =>
    have hn : g.yielding = false := hcourse.1
    exact ⟨fun hy => by simp [hn] at hy, fun ha => by simp [h.awake rfl] at ha⟩
  | cacheRemoved => exact ⟨hcourse.1, fun ha => ⟨(h.asleep ha).1, rfl⟩⟩
  | @sequencePanics stage s payload hstage =>
    cases stage with
    | stoppingOld | clearing | preparing | launching | awaitingReady | stoppingUnready =>
      exact ⟨hcourse.1, fun ha => by simp [h.awake rfl] at ha⟩
    | _ => simp [Stage.guarding?] at hstage
  | @operationPanics stage payload hstage =>
    cases stage with
    | stoppingDependent | resumingDependent =>
      have hn : g.yielding = false := hcourse.1
      exact ⟨fun hy => by simp [hn] at hy, fun ha => by simp [h.awake rfl] at ha⟩
    | _ =>
      -- Servers return, and the removal of a cache cannot fail.
      have hr := hcourse.2
      simp [serversReturn, Stage.asksServer, Stage.accepts, Reply.isPanic, Stage.guarding?] at hr hstage

theorem Holds.take {g : Slumber} {c : Coordinator} {op : Operation} {queue : Dispatcher Operation}
    (h : Holds .looking g c) :
    Holds (.begun op) (g.start (queue.running.getD 0) op) { c with queue } := by
  refine ⟨?_, rfl, ?_⟩
  · intro ticket ht
    have hq : queue.running = some ticket := ht
    exact ⟨op, by simp [start, hq]⟩
  · intro ha
    obtain ⟨ha, ho⟩ : g.asleep = true ∧ (!op.starts) = true := by simpa using ha
    obtain ⟨hh, hp⟩ := (h.asleep ha).1
    exact ⟨⟨hh, hp⟩, ho⟩

theorem Holds.release {g : Slumber} {c : Coordinator} {result : Except Fault Answer}
    (h : Holds (.finish result) g c) : Holds .looking g.finish c.released := by
  refine ⟨?_, trivial, ?_⟩
  · intro ticket ht
    simp [released] at ht
  · intro ha
    have hdown : Down c := by
      cases hy : g.yielding with
      | true => exact h.course hy
      | false => exact (h.asleep (by simpa [hy] using ha)).1
    exact ⟨⟨hdown.handle, hdown.phase⟩, rfl⟩

theorem move_holds {now : Nat} {g : Slumber} {c c' : Coordinator} {p p' : Point} {ms : List Moment}
    (hm : Move now c p ms c' p') (h : Holds p g c) :
    slumbers.Passes now ms g fun g' => Holds p' g' c' := by
  by_cases hp : p = .looking
  · subst hp
    cases hm with
    | take => exact ⟨trivial, h.take⟩
    | rest => exact ⟨h.known, trivial, h.asleep⟩
  by_cases hp' : p' = .looking
  · generalize p' = q at hm hp'
    cases hm with
    | finish result hr => exact ⟨h.known _ hr, h.release⟩
    | gone p | stopped p => exact (p.next_ne_looking hp').elim
    | _ => cases hp'
  obtain ⟨hcourse, hasleep⟩ := move_on hm hp hp' h
  rcases hm.queue with ⟨_, rfl, _⟩ | ⟨rfl, _⟩ | ⟨_, _, _, rfl, _⟩ | ⟨-, -, hq, hms⟩
  · exact (hp rfl).elim
  · exact (hp rfl).elim
  · exact (hp' rfl).elim
  · refine Watch.passes_of_unnoted (fun m hm => ?_) ⟨by rw [hq]; exact h.known, hcourse, hasleep⟩
    have ha := hms m hm
    cases ho : m.output with
    | started | finished => simp [ho, Output.isAside] at ha
    | _ => exact ⟨trivial, rfl⟩

/-- Between turns it matters only what is held and what is running. -/
theorem Holds.congr {g : Slumber} {c c' : Coordinator} (h : Holds c.point g c)
    (hr : c'.queue.running = c.queue.running) (hf : c'.face = c.face) : Holds c.point g c' := by
  have hh : c'.handle = c.handle := congrArg Face.handle hf
  have hp : c'.phase = c.phase := congrArg Face.phase hf
  refine ⟨fun ticket ht => h.known ticket (hr ▸ ht), ?_, fun ha => ?_⟩
  · have hc := h.course
    cases hs : c.stage with
    | none =>
      simp only [point, hs]
      trivial
    | some stage =>
      simp only [point, hs, OnCourse, hh] at hc ⊢
      exact hc
  · obtain ⟨hd, hq⟩ := h.asleep ha
    exact ⟨⟨hh.trans hd.handle, hp.trans hd.phase⟩, hq⟩

theorem signal_holds {now : Nat} {g : Slumber} {c : Coordinator} {s : Signal}
    (hs : s.Fits serversReturn c) (h : Holds c.point g c) :
    slumbers.law g (.heard now c s) ∧
      Holds (s.target c) (slumbers.note g (.heard now c s)) (s.effect c) := by
  refine ⟨trivial, ?_⟩
  cases s with
  | submit op => exact h.congr (Dispatcher.running_submit _ _) rfl
  | reply r =>
    obtain ⟨stage, hstage, hr⟩ := hs
    obtain ⟨hk, hc, ha⟩ := h
    simp only [point, hstage] at hc ha
    simp only [Signal.target, hstage]
    exact ⟨hk, ⟨hc, hr⟩, ha⟩
  | wake => exact at_halt (P := fun p => Holds p g c) h fun h => ⟨h.known, trivial, h.asleep⟩
  | setDependent | down => exact h.congr rfl rfl

theorem run_holds {name toolName : String} {settings : Settings} {h : Story} {c : Coordinator}
    (hr : Run serversReturn (fresh name toolName settings) h c) :
    slumbers.Kept h ∧ c.point.Sound c ∧ Holds c.point (slumbers.read h) c :=
  hr.upheld (fun _ _ hs => (Bool.and_eq_true_iff.mp hs).1) (fun _ hs h => signal_holds hs h)
    (fun hs hm h => move_holds hm h) (sound_fresh name toolName settings)
    ⟨fun _ ht => by simp [fresh] at ht, trivial, fun ha => by simp [slumbers, asleep, hasYielded] at ha⟩

end Slumber

/-! ## The operations that have ended -/

theorem mem_numbered {ops : List Operation} {ticket : Ticket} {op : Operation} :
    (ticket, op) ∈ numbered ops ↔ ops[ticket]? = some op := by
  constructor
  · intro h
    obtain ⟨⟨op', t⟩, hm, he⟩ := List.mem_map.mp h
    obtain ⟨rfl, rfl⟩ := Prod.mk.inj he
    exact List.mem_zipIdx_iff_getElem?.mp hm
  · intro h
    exact List.mem_map.mpr ⟨(op, ticket), List.mem_zipIdx_iff_getElem?.mpr h, rfl⟩

theorem mem_ended_note {x : Ticket × Operation} (g : Slumber) (e : Happening) (hx : x ∈ g.ended) :
    x ∈ (g.note e).ended := by
  simp only [Slumber.note]
  split
  · exact hx
  · exact List.mem_append_left _ hx
  · exact hx

theorem ended_started (h : Story) :
    ∀ x ∈ (slumbers.read h).ended ++ (slumbers.read h).current.toList,
      x ∈ (lineups.read h).started := by
  induction h using List.reverseRecOn with
  | nil => simp [slumbers]
  | append_singleton h e ih =>
    rw [slumbers.read_snoc, lineups.read_snoc]
    intro x hx
    cases e with
    | heard now c s => cases s <;> exact ih x hx
    | did now c o =>
      cases o with
      | started ticket op =>
        have hx' : x ∈ (slumbers.read h).ended ∨ x = (ticket, op) := by
          simpa [slumbers, Slumber.note, Slumber.start] using hx
        rcases hx' with hx' | rfl
        · exact List.mem_append_left _ (ih x (List.mem_append_left _ hx'))
        · exact List.mem_append_right _ (List.mem_singleton_self _)
      | finished ticket result =>
        refine ih x ?_
        simpa [slumbers, Slumber.note, Slumber.finish, or_assoc] using hx
      | _ => exact ih x hx

section
variable {name toolName : String} {settings : Settings} {h : Story} {c : Coordinator}

/-- Who has yielded has no server until an operation is started that starts one. -/
theorem Run.live_of_asleep (hr : Run serversReturn (fresh name toolName settings) h c)
    (ha : (slumbers.read h).asleep = true) :
    (ledgers.read h).live = [] ∧ c.handle = none ∧ c.phase = .uninitialized := by
  obtain ⟨-, -, hc⟩ := Slumber.run_holds hr
  obtain ⟨-, -, ho⟩ := Ownership.run_holds hr
  obtain ⟨⟨hh, hp⟩, hq⟩ := hc.asleep ha
  refine ⟨?_, hh, hp⟩
  cases hs : c.stage with
  | none =>
    simp only [point, hs] at ho
    rw [Ownership.Owning.live ho]
    simp [face, hh]
  | some stage =>
    simp only [point, hs] at ho hq
    cases stage with
    | shuttingDown | yielding | removingCache => exact Ownership.Free.live ho
    | _ => simp [Slumber.isQuiet, Stage.closes] at hq

/-- The operation that ended under a ticket is the one that was submitted under it. -/
theorem Run.ended_of_finished (hr : Run serversReturn (fresh name toolName settings) h c)
    {now : Nat} {seen : Coordinator} {ticket : Ticket} {result : Except Fault Answer}
    (hf : .did now seen (.finished ticket result) ∈ h) {op : Operation}
    (hs : (ticket, op) ∈ numbered (lineups.read h).submitted) :
    (ticket, op) ∈ (slumbers.read h).ended := by
  obtain ⟨before, after, rfl⟩ := List.append_of_mem hf
  obtain ⟨op', hcurrent⟩ := (Slumber.run_holds hr).1 before _ after rfl
  have hended : (ticket, op') ∈
      (slumbers.read (before ++ .did now seen (.finished ticket result) :: after)).ended := by
    rw [List.append_cons]
    refine slumbers.read_append (P := ((ticket, op') ∈ ·.ended)) mem_ended_note ?_ after
    rw [slumbers.read_snoc]
    refine List.mem_append_right _ ?_
    simp [hcurrent]
  have hstarted := ended_started _ _ (List.mem_append_left _ hended)
  have hop' := hr.mono (fun _ _ hs => (Bool.and_eq_true_iff.mp hs).1) |>.started_append_waiting
  have hmem : (ticket, op') ∈ numbered _ := hop' ▸ List.mem_append_left _ hstarted
  rw [mem_numbered] at hs hmem
  obtain rfl : op' = op := Option.some.inj (hmem.symm.trans hs)
  exact hended

end

end Coordinator

end Supervisor
