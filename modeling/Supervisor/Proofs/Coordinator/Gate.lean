import Mathlib.Data.List.Induction
import Supervisor.Coordinator.Gate
import Supervisor.Rehearsal.Visit
import Supervisor.Proofs.Coordinator.Ownership
import Supervisor.Proofs.Coordinator.Walk
/-!
# Commands at the gate

A command does not wait in the queue of the coordinator: it looks whenever it is woken, between any
two things that happen there. It is let in only to a server that can be used, and what it does
besides is to publish one notice if it is refused.
-/
namespace Supervisor

def Operation.clearsCaches : Operation → Bool
  | .restart t => t.clearsCaches
  | _ => false

namespace Coordinator

/-- No collaborator panics. -/
def returns : Conduct := fun s r => s.accepts r && !r.isPanic

theorem serversReturn_of_returns {stage : Stage} {r : Reply} (h : returns stage r = true) :
    serversReturn stage r = true := by
  simp only [returns, Bool.and_eq_true, Bool.not_eq_true'] at h
  simp [serversReturn, h]

theorem guardedPanics_of_returns {stage : Stage} {r : Reply} (h : returns stage r = true) :
    guardedPanics stage r = true := by
  simp only [returns, Bool.and_eq_true, Bool.not_eq_true'] at h
  simp [guardedPanics, h]

/-! ## Sequences that clear caches -/

structure Undertaking where
  /-- Is the operation that was started last to clear caches? -/
  clears : Bool := false
  /-- Has a start sequence begun that has not come to an end? -/
  underway : Bool := false

def Undertaking.note (g : Undertaking) : Happening → Undertaking
  | .did _ _ (.started _ op) => { clears := op.clearsCaches }
  | .did _ _ (.phaseSet p) => { g with underway := p.isTransition }
  | _ => g

def undertakings : Watch Undertaking where
  start := {}
  note := Undertaking.note
  law _ _ := True

/-- During a sequence the phase is one in which the coordinator is not ready. -/
theorem isTransition_of_underway {h : Story} (hu : (undertakings.read h).underway = true) :
    (walks.read h).phase.isTransition = true := by
  induction h using List.reverseRecOn with
  | nil => simp [undertakings] at hu
  | append_singleton h e ih =>
    rw [Watch.read_snoc] at hu ⊢
    cases e with
    | heard now c s => exact ih hu
    | did now c o =>
      cases o with
      | started => simp [undertakings, Undertaking.note] at hu
      | phaseSet p => simpa [undertakings, Undertaking.note, walks, Walk.note] using hu
      | notice n => simpa [walks, Walk.note] using ih hu
      | call | finished => exact ih hu

/-! ## What a look can bring -/

/-- Only a ready coordinator lets a guest in, and none makes it wait beyond its deadline. -/
theorem admission_cases (c : Coordinator) (now deadline : Nat) (wait : Duration) :
    (∃ id, c.admission now deadline wait = .enter id ∧ c.phase = .ready ∧ c.handle = some id) ∨
      (∃ f, c.admission now deadline wait = .refuse f ∧
        (f.code = "E_UNAVAILABLE" ∨ f.code = "E_TIMEOUT")) ∨
      c.admission now deadline wait = .wait ∧ now < deadline := by
  unfold admission
  cases hp : c.phase with
  | ready =>
    cases hh : c.handle with
    | none => exact .inr (.inl ⟨_, rfl, .inl rfl⟩)
    | some id => exact .inl ⟨id, rfl, rfl, rfl⟩
  | failed | uninitialized => exact .inr (.inl ⟨_, rfl, .inl rfl⟩)
  | starting | restarting =>
    simp only
    split
    · exact .inr (.inl ⟨_, rfl, .inl rfl⟩)
    · split
      · exact .inr (.inl ⟨_, rfl, .inr rfl⟩)
      · exact .inr (.inr ⟨rfl, by omega⟩)

/-- The server can be used after this story: it is the one that is held, it has not been asked to
stop, and nothing clears caches. -/
structure Usable (id : ServerId) (h : Story) (c : Coordinator) : Prop where
  ready : c.phase = .ready
  held : c.handle = some id
  live : (ledgers.read h).live = [id]
  calm : ¬ ((undertakings.read h).clears = true ∧ (undertakings.read h).underway = true)

section
variable {name toolName : String} {settings : Settings} {h story : Story} {c : Coordinator}

theorem usable_of_ready (hr : Run returns (fresh name toolName settings) h c) (hpre : story <+: h)
    {id : ServerId} (hp : (shown (fresh name toolName settings) story).phase = .ready)
    (hid : (shown (fresh name toolName settings) story).handle = some id) :
    Usable id story (shown (fresh name toolName settings) story) := by
  obtain ⟨after, rfl⟩ := hpre
  induction story using List.reverseRecOn with
  | nil => simp [shown, fresh] at hp
  | append_singleton before e _ =>
    have hshown : shown (fresh name toolName settings) (before ++ [e]) = e.shows := by
      simp [shown]
    rw [hshown] at hp hid ⊢
    have hface := e.face_shows
    have hphase : e.seen.phase = .ready := (congrArg Face.phase hface).symm.trans hp
    have hhandle : e.seen.face.handle = some id := (congrArg Face.handle hface).symm.trans hid
    have hsplit : before ++ [e] ++ after = before ++ e :: after := by simp
    have hservers := hr.mono fun _ _ => serversReturn_of_returns
    have hguarded := hr.mono fun _ _ => guardedPanics_of_returns
    refine ⟨hp, hid, Ownership.run_held hservers before e after hsplit id hhandle, ?_⟩
    rintro ⟨-, hu⟩
    have hwalk := ((Walk.run_holds hguarded).1 before e after hsplit).2
    have ht := isTransition_of_underway hu
    rw [Watch.read_snoc] at ht
    have hnote : (walks.note (walks.read before) e).phase = .ready := hwalk.trans hphase
    simp [hnote, Phase.isTransition] at ht

end

end Coordinator

/-! ## The whole stay of a guest -/

namespace Guest

/-- What happens while a guest is there. -/
inductive Incident (ρ : Type)
  | happened (e : Coordinator.Happening)
  | looked (now : Nat)
  /-- What was to be done with the server has ended so. -/
  | worked (answer : ρ)

inductive Deed (ρ : Type)
  /-- Its work was begun with this server, after this story. -/
  | began (id : ServerId) (story : Coordinator.Story)
  | published (n : Notice)
  | answered (answer : ρ)

structure Attendance (ρ : Type) where
  story : Coordinator.Story := []
  stay : Stay ρ := .waiting
  deeds : List (Deed ρ) := []

variable {ρ : Type}

/-- What it does when it has come so far. -/
def deed? (story : Coordinator.Story) : Stay ρ → Option (Deed ρ)
  | .waiting => none
  | .working id => some (.began id story)
  | .left answer => some (.answered answer)

/-- One incident; between two happenings the coordinator stays as it is to be seen then. -/
def attend (g : Guest) (refusal : Fault → ρ) (c₀ : Coordinator) (a : Attendance ρ) :
    Incident ρ → Attendance ρ
  | .happened e => { a with story := a.story ++ [e] }
  | .looked now =>
    let (stay, notices) := g.step refusal (Coordinator.shown c₀ a.story) now a.stay
    let deeds := if a.stay.isWaiting then (deed? a.story stay).toList else []
    { a with stay, deeds := a.deeds ++ notices.map .published ++ deeds }
  | .worked answer =>
    match a.stay with
    | .working _ => { a with stay := .left answer, deeds := a.deeds ++ [.answered answer] }
    | _ => a

def attendance (g : Guest) (refusal : Fault → ρ) (c₀ : Coordinator) (log : List (Incident ρ)) :
    Attendance ρ :=
  log.foldl (g.attend refusal c₀) {}

/-- The story of the coordinator meanwhile. -/
def storyOf (log : List (Incident ρ)) : Coordinator.Story :=
  log.filterMap fun
    | .happened e => some e
    | _ => none

/-- What is published of a command that is refused. -/
structure Refused (f : Fault) (n : Notice) : Prop where
  code : f.code = "E_UNAVAILABLE" ∨ f.code = "E_TIMEOUT"
  kind : n.kind = .commandRejected
  severity : n.severity = .error
  told : n.code = some f.code

/-- How far a command can come, and what it has done until then. -/
inductive Conforms {α : Type} (c₀ : Coordinator) (log : List (Incident (Except Fault α))) :
    Attendance (Except Fault α) → Prop
  | waiting {h : Coordinator.Story} : Conforms c₀ log ⟨h, .waiting, []⟩
  | working {h story : Coordinator.Story} {id : ServerId}
      (hu : Coordinator.Usable id story (Coordinator.shown c₀ story)) :
    Conforms c₀ log ⟨h, .working id, [.began id story]⟩
  | worked {h story : Coordinator.Story} {id : ServerId} {answer : Except Fault α}
      (hu : Coordinator.Usable id story (Coordinator.shown c₀ story)) (ha : .worked answer ∈ log) :
    Conforms c₀ log ⟨h, .left answer, [.began id story, .answered answer]⟩
  | refused {h : Coordinator.Story} {f : Fault} {n : Notice} (hr : Refused f n) :
    Conforms c₀ log ⟨h, .left (.error f), [.published n, .answered (.error f)]⟩

section
variable {α : Type} {c₀ c : Coordinator} {g : Guest} {refusal : Fault → ρ}
  {log : List (Incident (Except Fault α))} {a : Attendance (Except Fault α)}

@[simp] theorem attendance_snoc (log : List (Incident ρ)) (i : Incident ρ) :
    g.attendance refusal c₀ (log ++ [i]) = g.attend refusal c₀ (g.attendance refusal c₀ log) i := by
  simp [attendance]

theorem storyOf_prefix_snoc (log : List (Incident ρ)) (i : Incident ρ) :
    storyOf log <+: storyOf (log ++ [i]) := by
  rw [storyOf, storyOf, List.filterMap_append]
  exact List.prefix_append _ _

theorem story_attendance (log : List (Incident ρ)) :
    (g.attendance refusal c₀ log).story = storyOf log := by
  induction log using List.reverseRecOn with
  | nil => rfl
  | append_singleton log i ih =>
    rw [attendance_snoc, storyOf, List.filterMap_append, ← storyOf, ← ih]
    cases i with
    | happened e => rfl
    | looked now => simp [attend]
    | worked answer =>
      simp only [attend]
      split <;> simp

theorem step_waiting (g : Guest) (refusal : Fault → ρ) (c : Coordinator) (now : Nat) :
    g.step refusal c now .waiting =
      match c.admission now g.deadline g.wait with
      | .enter id => (.working id, [])
      | .refuse f =>
        (.left (refusal f), (g.command.map fun name => Coordinator.rejectedNotice name f).toList)
      | .wait => (.waiting, []) := by
  simp only [step, look]
  cases c.admission now g.deadline g.wait <;> rfl

/-- Who is not waiting any more will not wait again. -/
theorem isWaiting_attend {a : Attendance ρ} (ha : a.stay.isWaiting = false) (i : Incident ρ) :
    (g.attend refusal c₀ a i).stay.isWaiting = false := by
  cases i with
  | happened e => exact ha
  | looked now => cases hs : a.stay <;> simp_all [attend, step, Stay.isWaiting]
  | worked answer => cases hs : a.stay <;> simp_all [attend, Stay.isWaiting]

/-- A look at the deadline or later ends the waiting. -/
theorem isWaiting_looked (a : Attendance ρ) {now : Nat} (hd : g.deadline ≤ now) :
    (g.attend refusal c₀ a (.looked now)).stay.isWaiting = false := by
  cases hs : a.stay with
  | waiting =>
    simp only [attend, hs, step_waiting]
    rcases Coordinator.admission_cases (Coordinator.shown c₀ a.story) now g.deadline g.wait with
      ⟨id, ha, -⟩ | ⟨f, ha, -⟩ | ⟨-, hlt⟩
    · simp [ha, Stay.isWaiting]
    · simp [ha, Stay.isWaiting]
    · omega
  | working | left =>
    exact isWaiting_attend (by simp [hs, Stay.isWaiting]) _

theorem left_in_time (log : List (Incident ρ)) {now : Nat} (hl : .looked now ∈ log)
    (hd : g.deadline ≤ now) : (g.attendance refusal c₀ log).stay.isWaiting = false := by
  induction log using List.reverseRecOn with
  | nil => simp at hl
  | append_singleton log i ih =>
    rw [attendance_snoc]
    rcases List.mem_append.mp hl with hl | hl
    · exact isWaiting_attend (ih hl) i
    · obtain rfl := List.mem_singleton.mp hl
      exact isWaiting_looked _ hd

theorem Conforms.snoc (h : Conforms c₀ log a) (i : Incident (Except Fault α)) :
    Conforms c₀ (log ++ [i]) a := by
  cases h with
  | waiting => exact .waiting
  | working hu => exact .working hu
  | worked hu ha => exact .worked hu (List.mem_append_left _ ha)
  | refused hr => exact .refused hr

theorem refused_rejectedNotice {f : Fault} (hf : f.code = "E_UNAVAILABLE" ∨ f.code = "E_TIMEOUT")
    (command : String) : Refused f (Coordinator.rejectedNotice command f) :=
  ⟨hf, rfl, rfl, rfl⟩

/-- A look keeps a command to its course, provided that it is let in to a usable server only. -/
theorem Conforms.attend (h : Conforms c₀ log a) (hg : g.command.isSome)
    {i : Incident (Except Fault α)} (hi : i ∈ log)
    (hu : ∀ id, (Coordinator.shown c₀ a.story).phase = .ready →
      (Coordinator.shown c₀ a.story).handle = some id →
      Coordinator.Usable id a.story (Coordinator.shown c₀ a.story)) :
    Conforms c₀ log (g.attend .error c₀ a i) := by
  cases i with
  | happened e =>
    cases h with
    | waiting => exact .waiting
    | working hu' => exact .working hu'
    | worked hu' ha => exact .worked hu' ha
    | refused hr => exact .refused hr
  | looked now =>
    cases h with
    | @waiting story =>
      simp only [Guest.attend, step_waiting]
      rcases Coordinator.admission_cases (Coordinator.shown c₀ story) now g.deadline g.wait with
        ⟨id, ha, hp, hid⟩ | ⟨f, ha, hf⟩ | ⟨ha, -⟩
      · simpa [ha, Stay.isWaiting, deed?] using Conforms.working (hu id hp hid)
      · obtain ⟨command, hcommand⟩ := Option.isSome_iff_exists.mp hg
        have hr := refused_rejectedNotice hf command
        simpa [ha, hcommand, Stay.isWaiting, deed?] using Conforms.refused hr
      · simpa [ha, Stay.isWaiting, deed?] using Conforms.waiting
    | working hu' => simpa [Guest.attend, step, Stay.isWaiting] using Conforms.working hu'
    | worked hu' ha => simpa [Guest.attend, step, Stay.isWaiting] using Conforms.worked hu' ha
    | refused hr => simpa [Guest.attend, step, Stay.isWaiting] using Conforms.refused hr
  | worked answer =>
    cases h with
    | waiting => exact .waiting
    | working hu' => exact .worked hu' hi
    | worked hu' ha => exact .worked hu' ha
    | refused hr => exact .refused hr

theorem conforms {name toolName : String} {settings : Settings} {h : Coordinator.Story}
    (hr : Coordinator.Run Coordinator.returns (Coordinator.fresh name toolName settings) h c)
    (hg : g.command.isSome) (log : List (Incident (Except Fault α))) (hlog : storyOf log <+: h) :
    Conforms (Coordinator.fresh name toolName settings) log
      (g.attendance .error (Coordinator.fresh name toolName settings) log) := by
  induction log using List.reverseRecOn with
  | nil => exact .waiting
  | append_singleton log i ih =>
    have hpre : storyOf log <+: h := (storyOf_prefix_snoc log i).trans hlog
    rw [attendance_snoc]
    refine ((ih hpre).snoc i).attend hg (by simp) fun id hp hid => ?_
    rw [story_attendance] at hp hid ⊢
    exact Coordinator.usable_of_ready hr hpre hp hid

end

end Guest

/-! ## Guests in a rehearsal -/

namespace Rehearsal

/-- The coordinators with their collaborators, and what was published. -/
def scene (r : Rehearsal) : Player × Option Player × List Notice := (r.main, r.companion, r.notices)

@[simp] theorem scene_note (r : Rehearsal) (s : Seat) (a : Act) : (r.note s a).scene = r.scene := rfl

@[simp] theorem scene_modifyVisit (r : Rehearsal) (n : Nat) (f : Visit → Visit) :
    (r.modifyVisit n f).scene = r.scene := rfl

@[simp] theorem scene_setAlarm (r : Rehearsal) (time : Nat) (d : Delivery) :
    (r.setAlarm time d).scene = r.scene := rfl

@[simp] theorem scene_give (r : Rehearsal) (n : Nat) (v : Verdict) : (r.give n v).scene = r.scene := rfl

@[simp] theorem scene_conclude (r : Rehearsal) (n : Nat) (s : Seat) (x : Sequel) :
    (r.conclude n s x).scene = r.scene := by
  cases x <;> rfl

@[simp] theorem scene_engage (r : Rehearsal) (n : Nat) (s : Seat) (x : Option (Nat × Sequel)) :
    (r.engage n s x).scene = r.scene := by
  unfold engage
  split <;> simp

@[simp] theorem scene_useServer (r : Rehearsal) (n : Nat) (v : Visit) (id : ServerId) :
    (r.useServer n v id).scene = r.scene := by
  unfold useServer
  split <;> simp

theorem scene_foldl_publish (r : Rehearsal) (notices : List Notice) :
    (notices.foldl publish r).scene = (r.main, r.companion, notices.reverse ++ r.notices) := by
  induction notices generalizing r with
  | nil => rfl
  | cons n notices ih =>
    rw [List.foldl_cons, ih (r.publish n)]
    simp [publish]

theorem scene_look {r : Rehearsal} {n : Nat} {v : Visit} {p : Player}
    (hp : r.player? v.seat = some p) :
    (r.look n v).scene = (r.main, r.companion,
      (v.guest.step Verdict.ofFault p.coordinator r.clock v.stay).2.reverse ++
        r.notices) := by
  simp only [look, hp]
  split <;> simp [scene_foldl_publish]

/-- A command leaves the coordinators as they are, and publishes what its look brings. -/
theorem scene_runVisit {r : Rehearsal} {n : Nat} {v : Visit} {p : Player}
    (hv : r.visits[n]? = some v) (hc : v.command?.isSome) (hp : r.player? v.seat = some p)
    (hi : v.stay.isWaiting = true → v.incoming = none) :
    (r.runVisit n).scene = (r.main, r.companion,
      (v.guest.step Verdict.ofFault p.coordinator r.clock v.stay).2.reverse ++
        r.notices) := by
  cases hs : v.stay with
  | left answer => simp [runVisit, hv, hs, Guest.step, scene]
  | working id =>
    cases hin : v.incoming with
    | none => simp [runVisit, hv, hs, hin, Guest.step, scene]
    | some x =>
      simp only [runVisit, hv, hs, hin, scene_conclude]
      simp [Guest.step, scene]
  | waiting =>
    have hin : v.incoming = none := hi (by simp [hs, Stay.isWaiting])
    cases hpur : v.purpose with
    | forward | execute =>
      have hlook := scene_look (n := n) hp
      rw [hs] at hlook
      simpa only [runVisit, hv, hs, hin, hpur] using hlook
    | operation | serverHandle | stopHandle => simp [Visit.command?, hpur] at hc

end Rehearsal

/-- A command is let in once at most, and to a usable server; then it is answered what its work was
answered, and nothing is published of it. Otherwise it is refused with one notice, at its deadline at
the latest. Whatever it does leaves the coordinators as they are. -/
theorem command_let_in_or_refused {α : Type} {name toolName : String} {settings : Settings}
    {h : Coordinator.Story} {c : Coordinator} {g : Guest}
    (hr : Coordinator.Run Coordinator.returns (Coordinator.fresh name toolName settings) h c)
    (hg : g.command.isSome) (log : List (Guest.Incident (Except Fault α)))
    (hlog : Guest.storyOf log <+: h) :
    Guest.Conforms (Coordinator.fresh name toolName settings) log
      (g.attendance .error (Coordinator.fresh name toolName settings) log) ∧
    (∀ now, .looked now ∈ log → g.deadline ≤ now →
      (g.attendance .error (Coordinator.fresh name toolName settings) log).stay.isWaiting = false) ∧
    ∀ (r : Rehearsal) (n : Nat) (v : Visit) (p : Player), r.visits[n]? = some v →
      v.command?.isSome → r.player? v.seat = some p →
      (v.stay.isWaiting = true → v.incoming = none) →
      (r.runVisit n).scene = (r.main, r.companion,
        (v.guest.step Verdict.ofFault p.coordinator r.clock v.stay).2.reverse ++ r.notices) :=
  ⟨Guest.conforms hr hg log hlog, fun _ hl hd => Guest.left_in_time log hl hd,
    fun _ _ _ _ hv hc hp hi => Rehearsal.scene_runVisit hv hc hp hi⟩

/-- A command that comes while the server starts, waits, and is let in. -/
theorem command_let_in_or_refused_waits : ∃ h c, ∃ log : List (Guest.Incident (Except Fault Nat)),
    Coordinator.Run Coordinator.returns (Coordinator.fresh "main" "rcc" {}) h c ∧
    Guest.storyOf log <+: h ∧
    (Guest.attendance ⟨some "hover", .ofMillis 50, 51⟩ .error (Coordinator.fresh "main" "rcc" {})
      log).stay = .left (.ok 5) ∧
    Guest.Conforms (Coordinator.fresh "main" "rcc" {}) log
      (Guest.attendance ⟨some "hover", .ofMillis 50, 51⟩ .error (Coordinator.fresh "main" "rcc" {})
        log) := by
  have run := (.start : Coordinator.Run Coordinator.returns (Coordinator.fresh "main" "rcc" {}) [] _)
    |>.hear 0 (.submit .activate) trivial
    |>.hear 0 .wake trivial
    |>.hear 2 (.reply (.server "ls-1")) ⟨_, rfl, rfl⟩
    |>.hear 4 (.reply .done) ⟨_, rfl, rfl⟩
  obtain ⟨h, hh, run⟩ : ∃ h, h = _ ∧ Coordinator.Run Coordinator.returns
      (Coordinator.fresh "main" "rcc" {}) h _ := ⟨_, rfl, run⟩
  have hlog : Guest.storyOf (((h.take 4).map .happened ++ .looked 1 :: (h.drop 4).map .happened ++
      [.looked 4, .worked (.ok 5)] : List (Guest.Incident (Except Fault Nat)))) <+: h := by
    subst hh
    exact ⟨[], rfl⟩
  refine ⟨h, _, _, run, hlog, ?_, (command_let_in_or_refused run rfl _ hlog).1⟩
  subst hh
  rfl

end Supervisor
