import Supervisor.Coordinator.Step
/-!
# Stories of a coordinator

Signals reach a coordinator one after another, at any time and in any order, and each of them makes
it take a turn. The story of a run lists the signals and the outputs in order, each with the state
that others can see at that moment. A conduct says which replies may come while an operation waits.
-/
namespace Supervisor

def Reply.isPanic : Reply → Bool
  | .panicked _ => true
  | _ => false

/-- Is this a reply to the call for which an operation waits there? Only a call with a limit can be
overdue, and the removal of a directory always ends. -/
def Stage.accepts : Stage → Reply → Bool
  | .removingCache _, .done => true
  | .removingCache _, _ => false
  | _, .fault _ | _, .panicked _ => true
  | .stoppingDependent _, .flag _ => true
  | .preparing _, .environment _ => true
  | .launching _, .server _ => true
  | .awaitingReady s _, .overdue => s.settings.server.readyTimeout.isSome
  | .stoppingDependent _, .done | .preparing _, .done | .launching _, .done => false
  | _, .done => true
  | _, _ => false

namespace Coordinator

/-- What reaches a coordinator from outside. -/
inductive Signal
  /-- A caller wants an operation to be carried out. -/
  | submit (op : Operation)
  /-- The worker looks into the queue. -/
  | wake
  | reply (r : Reply)
  | setDependent (d : DependentId)
  /-- Which servers do not run any more. -/
  | down (ids : List ServerId)

def hear (c : Coordinator) (now : Nat) : Signal → Turn
  | .submit op => ⟨now, (c.submit op).2, []⟩
  | .wake => c.wake now
  | .reply r => c.reply now r
  | .setDependent d => ⟨now, c.setDependent d, []⟩
  | .down ids => ⟨now, { c with down := ids }, []⟩

inductive Happening
  | heard (now : Nat) (seen : Coordinator) (s : Signal)
  | did (now : Nat) (seen : Coordinator) (o : Output)

/-- The state that others can see then; a signal is heard in the state in which it comes. -/
def Happening.seen : Happening → Coordinator
  | .heard _ c _ | .did _ c _ => c

abbrev Story := List Happening

/-- The story so far, when a turn is taken after `h`. -/
def Turn.since (t : Turn) (h : Story) : Story :=
  h ++ t.moments.map fun m => .did t.now m.seen m.output

/-! ## Runs -/

/-- Which replies may come at a stage. -/
abbrev Conduct := Stage → Reply → Bool

/-- Only replies answer something; everything else can come at any time. -/
def Signal.Fits (conduct : Conduct) (c : Coordinator) : Signal → Prop
  | .reply r => ∃ stage, c.stage = some stage ∧ conduct stage r = true
  | _ => True

theorem Signal.Fits.mono {conduct conduct' : Conduct} {c : Coordinator} {s : Signal}
    (hle : ∀ stage r, conduct stage r = true → conduct' stage r = true) (hs : s.Fits conduct c) :
    s.Fits conduct' c := by
  cases s with
  | reply r =>
    obtain ⟨stage, hstage, hr⟩ := hs
    exact ⟨stage, hstage, hle stage r hr⟩
  | _ => trivial

inductive Run (conduct : Conduct) (c₀ : Coordinator) : Story → Coordinator → Prop
  | start : Run conduct c₀ [] c₀
  | hear {h : Story} {c : Coordinator} (now : Nat) (s : Signal) (hr : Run conduct c₀ h c)
      (hs : s.Fits conduct c) :
      Run conduct c₀ ((c.hear now s).since (h ++ [.heard now c s])) (c.hear now s).state

theorem Run.mono {conduct conduct' : Conduct} {c₀ c : Coordinator} {h : Story}
    (hle : ∀ stage r, conduct stage r = true → conduct' stage r = true) (hr : Run conduct c₀ h c) :
    Run conduct' c₀ h c := by
  induction hr with
  | start => exact .start
  | hear now s _ hs ih => exact ih.hear now s (hs.mono hle)

/-- A coordinator that nobody has used. -/
def fresh (name toolName : String) (settings : Settings) : Coordinator :=
  { name, toolName, settings }

/-! ## What holds all along a story -/

/-- Each happening stands in this relation to the story before it. -/
def Always (Q : Story → Happening → Prop) (h : Story) : Prop :=
  ∀ before e after, h = before ++ e :: after → Q before e

theorem always_nil (Q : Story → Happening → Prop) : Always Q [] := by
  intro before e after he
  simp at he

/-- What comes later is related to what came before it as well. -/
theorem always_append {Q : Story → Happening → Prop} {h h' : Story} :
    Always Q (h ++ h') ↔ Always Q h ∧ Always (fun before e => Q (h ++ before) e) h' := by
  constructor
  · intro ha
    constructor
    · intro before e after he
      exact ha before e (after ++ h') (by simp [he])
    · intro before e after he
      exact ha (h ++ before) e after (by simp [he])
  · rintro ⟨ha, ha'⟩ before e after he
    rcases List.append_eq_append_iff.mp he with ⟨rest, rfl, hrest⟩ | ⟨rest, hrest, hafter⟩
    · exact ha' rest e after hrest
    · cases rest with
      | nil =>
        have hh : h' = [] ++ e :: after := by simpa using hafter.symm
        have hQ := ha' [] e after hh
        simpa [hrest] using hQ
      | cons x rest =>
        obtain ⟨rfl, rfl⟩ := List.cons.inj hafter
        exact ha before e rest hrest

theorem always_singleton {Q : Story → Happening → Prop} {e : Happening} :
    Always Q [e] ↔ Q [] e := by
  constructor
  · intro ha
    exact ha [] e [] rfl
  · intro hQ before x after hx
    rcases List.append_eq_singleton_iff.mp hx.symm with ⟨rfl, he⟩ | ⟨rfl, he⟩
    · obtain ⟨rfl, rfl⟩ := List.cons.inj he
      exact hQ
    · simp at he

theorem always_snoc {Q : Story → Happening → Prop} {h : Story} {e : Happening} :
    Always Q (h ++ [e]) ↔ Always Q h ∧ Q h e := by
  rw [always_append, always_singleton, List.append_nil]

/-! ## Watching a story

A watch writes something down at each happening, and has a law that each of them must keep.
-/

structure Watch (γ : Type) where
  start : γ
  note : γ → Happening → γ
  /-- What a happening has to meet, by what was written down before it. -/
  law : γ → Happening → Prop

namespace Watch
variable {γ : Type} (w : Watch γ)

def read (h : Story) : γ := h.foldl w.note w.start

@[simp] theorem read_nil : w.read [] = w.start := rfl

@[simp] theorem read_snoc (h : Story) (e : Happening) : w.read (h ++ [e]) = w.note (w.read h) e := by
  simp [read]

/-- What no note takes back stays as the story goes on. -/
theorem read_append {P : γ → Prop} (hP : ∀ g e, P g → P (w.note g e)) {h : Story} (hp : P (w.read h))
    (h' : Story) : P (w.read (h ++ h')) := by
  induction h' generalizing h with
  | nil => simpa using hp
  | cons e h' ih =>
    rw [List.append_cons]
    apply ih
    rw [read_snoc]
    exact hP _ e hp

/-- The law was kept all along. -/
def Kept (h : Story) : Prop := Always (fun before e => w.law (w.read before) e) h

theorem kept_nil : w.Kept [] := always_nil _

theorem kept_snoc {h : Story} {e : Happening} :
    w.Kept (h ++ [e]) ↔ w.Kept h ∧ w.law (w.read h) e := always_snoc

/-- The law is kept in these moments of a turn, and then `P` holds of what was written down. -/
def Passes (now : Nat) : List Moment → γ → (γ → Prop) → Prop
  | [], g, P => P g
  | m :: ms, g, P =>
    w.law g (.did now m.seen m.output) ∧
      Passes now ms (w.note g (.did now m.seen m.output)) P

variable {w} {now : Nat} {g : γ} {P P' : γ → Prop}

theorem Passes.mono {ms : List Moment} (hP : ∀ g, P g → P' g) (h : w.Passes now ms g P) :
    w.Passes now ms g P' := by
  induction ms generalizing g with
  | nil => exact hP g h
  | cons m ms ih => exact ⟨h.1, ih h.2⟩

/-- Something was written down of which `P` holds. -/
theorem Passes.exists {ms : List Moment} (h : w.Passes now ms g P) : ∃ g', P g' := by
  induction ms generalizing g with
  | nil => exact ⟨g, h⟩
  | cons m ms ih => exact ih h.2

/-- The same is written down under another law. -/
theorem Passes.under {w' : Watch γ} {ms : List Moment} (hn : w'.note = w.note)
    (h : w.Passes now ms g P) (h' : w'.Passes now ms g fun _ => True) : w'.Passes now ms g P := by
  induction ms generalizing g with
  | nil => exact h
  | cons m ms ih =>
    refine ⟨h'.1, ih ?_ h'.2⟩
    rw [hn]
    exact h.2

/-- Moments that are not written down. -/
theorem passes_of_unnoted {ms : List Moment}
    (hms : ∀ m ∈ ms, w.law g (.did now m.seen m.output) ∧
      w.note g (.did now m.seen m.output) = g) (hP : P g) : w.Passes now ms g P := by
  induction ms with
  | nil => exact hP
  | cons m ms ih =>
    obtain ⟨hlaw, hnote⟩ := hms m (by simp)
    refine ⟨hlaw, ?_⟩
    rw [hnote]
    exact ih fun x hx => hms x (by simp [hx])

theorem passes_append {ms ms' : List Moment} :
    w.Passes now (ms ++ ms') g P ↔ w.Passes now ms g fun g' => w.Passes now ms' g' P := by
  induction ms generalizing g with
  | nil => exact Iff.rfl
  | cons m ms ih => exact and_congr_right fun _ => ih

theorem Passes.kept {ms : List Moment} {h : Story} (hk : w.Kept h)
    (hm : w.Passes now ms (w.read h) P) :
    w.Kept (h ++ ms.map fun m => .did now m.seen m.output) ∧
      P (w.read (h ++ ms.map fun m => .did now m.seen m.output)) := by
  induction ms generalizing h with
  | nil => simpa using ⟨hk, hm⟩
  | cons m ms ih =>
    have hk' : w.Kept (h ++ [.did now m.seen m.output]) := w.kept_snoc.mpr ⟨hk, hm.1⟩
    have hm' := hm.2
    rw [← w.read_snoc h] at hm'
    simpa using ih hk' hm'

end Watch

end Coordinator

end Supervisor
