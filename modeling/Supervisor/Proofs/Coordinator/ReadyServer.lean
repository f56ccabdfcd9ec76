import Supervisor.Proofs.Coordinator.Gate
import Supervisor.Proofs.Coordinator.Progress
/-!
# The server of a ready coordinator

A coordinator that is ready has a server at hand, which was never asked to stop: commands are let in
to it, and a crash is seen as soon as it is down. There is one exception. An operation that only stops
the server takes it away first and leaves the phase as it is until the server has stopped.
-/
namespace Supervisor

/-- Does it stop the server and start none? -/
def Operation.dismisses : Operation → Bool
  | .stop | .yieldCaches => true
  | _ => false

namespace Coordinator

structure Parting where
  /-- Is the operation that was started last only to stop the server? -/
  dismissing : Bool := false
  /-- Has a stop been announced since the phase was set? -/
  announced : Bool := false

def Parting.note (g : Parting) : Happening → Parting
  | .did _ _ (.started _ op) => { g with dismissing := op.dismisses }
  | .did _ _ (.phaseSet _) => { g with announced := false }
  | .did _ _ (.notice n) => if n.kind = .stopping then { g with announced := true } else g
  | _ => g

/-- While it is ready, the server is missing exactly since its stop was announced. -/
structure Explained (g : Parting) (f : Face) : Prop where
  missing : f.phase = .ready → (g.announced = true ↔ f.handle = none)
  dismissed : f.phase = .ready → g.announced = true → g.dismissing = true

def partings : Watch Parting where
  start := {}
  note := Parting.note
  law g e := Explained (g.note e) e.seen.face

namespace Parting

theorem note_notice (g : Parting) (now : Nat) (c : Coordinator) {n : Notice}
    (hn : n.kind ≠ .stopping) : partings.note g (.did now c (.notice n)) = g := by
  simp [partings, note, hn]

theorem explained_of_not_ready {g : Parting} {f : Face} (hp : f.phase ≠ .ready) : Explained g f :=
  ⟨fun h => (hp h).elim, fun h => (hp h).elim⟩

/-- The operation is known where it matters later. -/
def Aims (g : Parting) : Point → Prop
  | .begun op => g.dismissing = op.dismisses
  | .dropping .shutdown | .dropping (.yielding _) => g.dismissing = true
  | _ => True

def Holds (p : Point) (g : Parting) (c : Coordinator) : Prop :=
  (Explained g c.face ∧ g.Aims p) ∧ ∃ tally, Consistency.Holds p tally c.face

/-- No stop is announced while a server is held. -/
theorem announced_of_settled {g : Parting} {tally : Tally} {f : Face} (hx : Explained g f)
    (hs : Consistency.Settled tally f) (hp : f.phase = .ready) : g.announced = false := by
  have hh : f.handle ≠ none := Option.isSome_iff_ne_none.mp (hs.rested.handle.mpr hp)
  have hn : ¬ g.announced = true := fun ha => hh ((hx.missing hp).mp ha)
  simpa using hn

/-- The server is taken away: by an operation that only stops it, or in a sequence. -/
theorem explained_dropped {g : Parting} {f : Face} (hp : f.phase = .ready → g.dismissing = true) :
    Explained { g with announced := true } { f with handle := none } :=
  ⟨fun _ => ⟨fun _ => rfl, fun _ => rfl⟩, fun h _ => hp h⟩

theorem passes_shift {now : Nat} {g : Parting} {c : Coordinator} {old : Phase} {P : Parting → Prop}
    (hx : Explained { g with announced := false } c.face) (hP : P { g with announced := false }) :
    partings.Passes now (shift old c) g P := by
  have hnote : ∀ (g : Parting) (n : Notice), n.kind = .stateChanged →
      partings.note g (.did now c (.notice n)) = g := by
    intro g n hn
    exact note_notice g now c (by simp [hn])
  refine .shift hx (fun n hn => ?_) hnote hP
  have hn' := hnote { g with announced := false } n hn
  exact (congrArg (Explained · c.face) hn').mpr hx

theorem openingPhase_ne_ready (c : Coordinator) : c.openingPhase ≠ .ready := by
  simp only [openingPhase]
  split <;> simp

theorem not_ready_of_transition {p : Phase} (hp : p = .starting ∨ p = .restarting) : p ≠ .ready := by
  rcases hp with rfl | rfl <;> simp

theorem move_explained {now : Nat} {g : Parting} {tally : Tally} {c c' : Coordinator} {p p' : Point}
    {ms : List Moment} (hm : Move now c p ms c' p') (hx : Explained g c.face) (ha : g.Aims p)
    (h : Consistency.Holds p tally c.face) :
    partings.Passes now ms g fun g' => Explained g' c'.face ∧ g'.Aims p' := by
  cases hm with
  | @take op queue hq =>
    have hn : ∀ hp : c.face.phase = .ready, g.announced = false := announced_of_settled hx h
    have hx' : Explained { g with dismissing := op.dismisses } c.face :=
      ⟨hx.missing, fun hp hs => by simp [hn hp] at hs⟩
    exact ⟨hx', hx', rfl⟩
  | rest | activate | restart | reconfigure | spareDependent | keepCaches | keepEnvironment | keepCache
  | leave | stayReady | keepRunning | dependentStopped | dependentFailed | cleared | prepared | launched
  | gotReady | notReady | overdue | unreadyStopped | dependentResumed | cacheRemoved =>
    exact ⟨hx, trivial⟩
  | stop | yieldCaches => exact ⟨hx, ha⟩
  | gone p => exact ⟨hx, by cases p <;> trivial⟩
  | enter trigger answer =>
    have hx' : Explained { g with announced := false } (c.entry trigger).face :=
      explained_of_not_ready (openingPhase_ne_ready c)
    exact passes_shift hx' ⟨hx', trivial⟩
  | @drop id p hh =>
    have hp : c.face.phase = .ready → g.dismissing = true := by
      cases p with
      | sequence s => exact fun hp => (not_ready_of_transition h.phase hp).elim
      | shutdown | yielding => exact fun _ => ha
    have hx' : Explained { g with announced := true } { c.face with handle := none } :=
      explained_dropped hp
    exact ⟨hx', hx', hx', by cases p <;> trivial⟩
  | stopDependent | stopUnready | resumeDependent | removeCache => exact ⟨hx, hx, trivial⟩
  | clearCaches | prepareEnvironment | launch | awaitReady => exact ⟨hx, hx, hx, trivial⟩
  | succeed s id =>
    have hx' : Explained { g with announced := false } (c.succeeded id).face :=
      ⟨fun _ => by simp [succeeded, atPhase, face], fun _ h => by simp at h⟩
    rw [Watch.passes_append]
    exact passes_shift hx' ⟨hx', hx', trivial⟩
  | fail s f =>
    have hx' : Explained { g with announced := false } (c.failed f).face :=
      explained_of_not_ready (by simp [failed, atPhase, face])
    rw [Watch.passes_append]
    exact passes_shift hx' ⟨hx', hx', trivial⟩
  | close r =>
    have hx' : Explained { g with announced := false } (c.atPhase .uninitialized).face :=
      explained_of_not_ready (by simp [atPhase, face])
    exact passes_shift hx' ⟨hx', trivial⟩
  | finish r hr => exact ⟨hx, hx, trivial⟩
  | @stopped r o p id since hr =>
    have hn : partings.note g (.did now c (.notice (stopNotice id (now - since) o))) = g :=
      note_notice g now c (by cases o <;> simp [stopNotice, Turn.stoppedNotice, Turn.uncleanStopNotice])
    simp only [Watch.Passes, hn]
    exact ⟨(congrArg (Explained · c.face) hn).mpr hx, hx, by cases p <;> trivial⟩
  | callFails f hstage => exact ⟨hx, trivial⟩
  | sequencePanics payload hstage => exact ⟨hx, trivial⟩
  | operationPanics payload hstage => exact ⟨hx, trivial⟩

theorem move_holds {now : Nat} {g : Parting} {c c' : Coordinator} {p p' : Point} {ms : List Moment}
    (hs : p.Sound c) (hm : Move now c p ms c' p') (h : Holds p g c) :
    partings.Passes now ms g fun g' => Holds p' g' c' := by
  obtain ⟨⟨hx, ha⟩, tally, hc⟩ := h
  have hc' := (Consistency.move_holds hs hm hc).exists
  exact (move_explained hm hx ha hc).mono fun g' hg' => ⟨hg', hc'⟩

theorem signal_holds {now : Nat} {g : Parting} {c : Coordinator} {s : Signal}
    (hc : c.point.Sound c) (hs : s.Fits guardedPanics c) (h : Holds c.point g c) :
    partings.law g (.heard now c s) ∧
      Holds (s.target c) (partings.note g (.heard now c s)) (s.effect c) := by
  obtain ⟨⟨hx, ha⟩, tally, ht⟩ := h
  obtain ⟨-, ht'⟩ := @Consistency.signal_holds now tally c s hc hs ht
  refine ⟨hx, ⟨?_, ?_⟩, tally, ht'⟩
  · rw [Signal.face_effect]
    exact hx
  · cases s with
    | reply r =>
      obtain ⟨stage, hstage, -⟩ := hs
      simp only [Signal.target, hstage]
      trivial
    | wake => exact at_halt (P := g.Aims) ha id
    | submit | setDependent | down => exact ha

theorem holds_fresh (name toolName : String) (settings : Settings) :
    Holds .idle partings.start (fresh name toolName settings) :=
  ⟨⟨explained_of_not_ready (by simp [fresh, face]), trivial⟩, _,
    Consistency.holds_fresh name toolName settings⟩

theorem run_holds {name toolName : String} {settings : Settings} {h : Story} {c : Coordinator}
    (hr : Run guardedPanics (fresh name toolName settings) h c) :
    partings.Kept h ∧ c.point.Sound c ∧ Holds c.point (partings.read h) c :=
  hr.upheld (fun _ _ hs => (Bool.and_eq_true_iff.mp hs).1) signal_holds move_holds
    (sound_fresh name toolName settings) (holds_fresh name toolName settings)

end Parting

/-! ## What others find -/

section
variable {name toolName : String} {settings : Settings} {h story : Story} {c : Coordinator}

theorem explained_of_prefix (hr : Run guardedPanics (fresh name toolName settings) h c)
    (hpre : story <+: h) :
    Explained (partings.read story) (shown (fresh name toolName settings) story).face := by
  obtain ⟨after, rfl⟩ := hpre
  induction story using List.reverseRecOn with
  | nil => exact Parting.explained_of_not_ready (by simp [shown, fresh, face])
  | append_singleton before e _ =>
    have hshown : shown (fresh name toolName settings) (before ++ [e]) = e.shows := by
      simp [shown]
    have hsplit : before ++ [e] ++ after = before ++ e :: after := by simp
    rw [hshown, Happening.face_shows, Watch.read_snoc]
    exact (Parting.run_holds hr).1 before e after hsplit

/-- The server that is held was never asked to stop, it counts as crashed only if it is down, and a
guest is let in to it. -/
structure AtHand (id : ServerId) (h : Story) (c : Coordinator) : Prop where
  held : c.handle = some id
  live : (ledgers.read h).live = [id]
  crashed : c.hasCrashed = true ↔ id ∈ c.down
  enters : ∀ now deadline wait, c.admission now deadline wait = .enter id

/-- An operation is stopping the server: none is held, which counts as a crash, and a guest is told
that the handle is missing. -/
structure Dismissed (h : Story) (c : Coordinator) : Prop where
  dismissing : (partings.read h).dismissing = true
  handle : c.handle = none
  crashed : c.hasCrashed = true
  refused : ∀ now deadline wait, c.admission now deadline wait = .refuse handleMissingFault

theorem Usable.atHand {id : ServerId} (hu : Usable id story c) : AtHand id story c := by
  refine ⟨hu.held, hu.live, ?_, fun now deadline wait => ?_⟩
  · simp [hasCrashed, hasLiveServer, isRunning, hu.ready, hu.held]
  · simp [admission, hu.ready, hu.held]

theorem dismissed_of_missing (hp : c.phase = .ready) (hh : c.handle = none)
    (hd : (partings.read story).dismissing = true) : Dismissed story c := by
  refine ⟨hd, hh, ?_, fun now deadline wait => ?_⟩
  · simp [hasCrashed, hasLiveServer, hp, hh]
  · simp [admission, hp, hh]

/-- Who stops an idle coordinator that holds a server finds it waiting without one. -/
theorem wake_dismisses {id : ServerId} {op : Operation} (hop : op.dismisses = true)
    (hr : c.queue.running = none) (hw : c.queue.waiting = []) (hc : c.queue.closed = false)
    (hh : c.handle = some id) (now : Nat) :
    ((c.submit op).2.hear now .wake).state.phase = c.phase ∧
      ((c.submit op).2.hear now .wake).state.handle = none := by
  have hq : (c.submit op).2.queue.start? = some (op,
      { c.queue with
        waiting := [], running := some c.queue.accepted, accepted := c.queue.accepted + 1
        pending := c.queue.pending + 1 }) := by
    simp [submit, Dispatcher.submit, hc, hw, Dispatcher.start?, hr]
  have hlen : (c.submit op).2.queue.waiting.length = 1 := by
    simp [submit, Dispatcher.submit, hc, hw]
  simp only [hear, wake, hlen, Turn.proceed, hq]
  cases op with
  | stop | yieldCaches =>
    simp [Turn.start, Turn.begin, Turn.stopCurrent, Turn.publish, Turn.ask, submit, hh]
  | activate | restart | configure => simp [Operation.dismisses] at hop

theorem exists_dismissed (hr : Run returns (fresh name toolName settings) h c) (hp : c.phase = .ready)
    (hs : c.stage = none) (hw : c.queue.waiting = []) {op : Operation} (hop : op.dismisses = true)
    (now : Nat) :
    ∃ h', Run returns (fresh name toolName settings) (h ++ h')
        ((c.submit op).2.hear now .wake).state ∧
      ((c.submit op).2.hear now .wake).state.phase = .ready ∧
      Dismissed (h ++ h') ((c.submit op).2.hear now .wake).state := by
  have hguarded := hr.mono fun _ _ => guardedPanics_of_returns
  obtain ⟨-, hsound, hsettled⟩ := Consistency.run_holds hguarded
  obtain ⟨-, -, hline, -⟩ := Lineup.run_holds (fun _ _ hs => (Bool.and_eq_true_iff.mp hs).1) hr
  simp only [point, hs] at hsound hsettled
  obtain ⟨id, hid⟩ := Option.isSome_iff_exists.mp (hsettled.rested.handle.mpr hp)
  obtain ⟨hphase, hhandle⟩ := wake_dismisses hop hsound.2 hw hline.isOpen hid now
  have hrun := (hr.hear now (.submit op) trivial).hear now .wake trivial
  obtain ⟨more, hmore⟩ := exists_since_eq_append (c.hear now (.submit op)) h
    (.heard now c (.submit op))
  rw [hmore] at hrun
  obtain ⟨more', hmore'⟩ := exists_since_eq_append
    ((c.hear now (.submit op)).state.hear now .wake) (h ++ more)
    (.heard now (c.hear now (.submit op)).state .wake)
  rw [hmore', List.append_assoc] at hrun
  have hx := (Parting.run_holds (hrun.mono fun _ _ => guardedPanics_of_returns)).2.2.1.1
  have hready := hphase.trans hp
  exact ⟨_, hrun, hready,
    dismissed_of_missing hready hhandle (hx.dismissed hready ((hx.missing hready).mpr hhandle))⟩

end

/-- At each moment at which a coordinator is ready it has a server at hand, unless an operation has
begun to stop that server and does no more than that. Whoever stops an idle coordinator that is ready
brings it there. -/
theorem ready_at_hand_iff {name toolName : String} {settings : Settings} {h : Story} {c : Coordinator}
    (hr : Run returns (fresh name toolName settings) h c) :
    (∀ story, story <+: h → (shown (fresh name toolName settings) story).phase = .ready →
      ((partings.read story).announced = false ↔
        ∃ id, AtHand id story (shown (fresh name toolName settings) story)) ∧
      ((partings.read story).announced = true →
        Dismissed story (shown (fresh name toolName settings) story))) ∧
    (c.phase = .ready → c.stage = none → c.queue.waiting = [] →
      ∀ op now, op.dismisses = true → ∃ h', Run returns (fresh name toolName settings) (h ++ h')
          ((c.submit op).2.hear now .wake).state ∧
        ((c.submit op).2.hear now .wake).state.phase = .ready ∧
        Dismissed (h ++ h') ((c.submit op).2.hear now .wake).state) := by
  refine ⟨fun story hpre hp => ?_, fun hp hs hw op now hop => exists_dismissed hr hp hs hw hop now⟩
  have hx := explained_of_prefix (hr.mono fun _ _ => guardedPanics_of_returns) hpre
  refine ⟨⟨fun ha => ?_, ?_⟩, fun ha => ?_⟩
  · have hh : (shown (fresh name toolName settings) story).handle ≠ none := by
      intro hn
      simp [(hx.missing hp).mpr hn] at ha
    obtain ⟨id, hid⟩ := Option.ne_none_iff_exists'.mp hh
    exact ⟨id, (usable_of_ready hr hpre hp hid).atHand⟩
  · rintro ⟨id, hid⟩
    have hn : ¬ (partings.read story).announced = true := by
      intro ha
      have hnone : (shown (fresh name toolName settings) story).handle = none := (hx.missing hp).mp ha
      simp [hid.held] at hnone
    simpa using hn
  · exact dismissed_of_missing hp ((hx.missing hp).mp ha) (hx.dismissed hp ha)

/-- A coordinator that became ready, before and after someone stops it. -/
theorem ready_at_hand_iff_stopped : ∃ h c, Run returns (fresh "main" "rcc" {}) h c ∧
    c.phase = .ready ∧ AtHand "ls-1" h (shown (fresh "main" "rcc" {}) h) ∧
    ∃ h', Run returns (fresh "main" "rcc" {}) (h ++ h') ((c.submit .stop).2.hear 5 .wake).state ∧
      ((c.submit .stop).2.hear 5 .wake).state.phase = .ready ∧
      Dismissed (h ++ h') ((c.submit .stop).2.hear 5 .wake).state := by
  have run := (.start : Run returns (fresh "main" "rcc" {}) [] _)
    |>.hear 0 (.submit .activate) trivial
    |>.hear 0 .wake trivial
    |>.hear 2 (.reply (.server "ls-1")) ⟨_, rfl, rfl⟩
    |>.hear 4 (.reply .done) ⟨_, rfl, rfl⟩
  obtain ⟨hhand, hstop⟩ := ready_at_hand_iff run
  obtain ⟨id, hid⟩ := (hhand _ (List.prefix_refl _) rfl).1.mp rfl
  obtain rfl : "ls-1" = id := Option.some.inj hid.held
  exact ⟨_, _, run, rfl, hid, hstop rfl rfl rfl .stop 5 rfl⟩

end Coordinator

end Supervisor
