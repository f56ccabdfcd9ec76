import Supervisor.Proofs.Rehearsal.EndOfMoment
/-!
# Waiting for a server

Whoever asks for the server of a coordinator while it starts waits until it is there, until it is
clear that it will not come, or until a deadline. Here this is followed through every run: tasks run
in any order, time passes when none can run, and others come and do what they like.
-/
namespace Supervisor

/-! ## Looks -/

/-- One look of a visit: when it was, and at which coordinator. -/
structure Glance where
  time : Nat
  seen : Coordinator

namespace Glance

/-- The server is on its way, and not because caches are being cleared. -/
def OnTheWay (g : Glance) : Prop :=
  (g.seen.phase = .starting ∨ g.seen.phase = .restarting) ∧ g.seen.trigger ≠ some .clearCaches

/-- What a visit is told that looks so. -/
inductive Decides (wait : Duration) (deadline : Nat) (g : Glance) : Verdict → Prop
  | ready {id : ServerId} (hp : g.seen.phase = .ready) (hh : g.seen.handle = some id) :
    Decides wait deadline g (.result (.ok (.string id)))
  | missing (hp : g.seen.phase = .ready) (hh : g.seen.handle = none) :
    Decides wait deadline g (.ofFault (.unavailable "language server handle missing"))
  | failed (hp : g.seen.phase = .failed) :
    Decides wait deadline g (.ofFault (.unavailable ("language server failed to start (" ++
      g.seen.lastError.getD "unknown error" ++ "); restart it to continue")))
  | notRunning (hp : g.seen.phase = .uninitialized) :
    Decides wait deadline g (.ofFault (.unavailable "language server is not running"))
  | clearing (hp : g.seen.phase = .starting ∨ g.seen.phase = .restarting)
      (hc : g.seen.trigger = some .clearCaches) :
    Decides wait deadline g
      (.ofFault (.unavailable "Unable to run commands while clearing environments"))
  | starting (hp : g.seen.phase = .starting) (hw : g.OnTheWay) (ht : g.time = deadline) :
    Decides wait deadline g (.ofFault (.timeout ("language server still starting after " ++ wait.text)))
  | restarting (hp : g.seen.phase = .restarting) (hw : g.OnTheWay) (ht : g.time = deadline) :
    Decides wait deadline g
      (.ofFault (.timeout ("language server still restarting after " ++ wait.text)))

theorem isClearing_iff (c : Coordinator) : c.isClearing = true ↔ c.trigger = some .clearCaches := by
  cases h : c.trigger <;> simp [Coordinator.isClearing, h, Trigger.clearsCaches]

/-- While the server is on its way, a look lets a visit wait until its deadline. -/
theorem admission_of_transition (g : Glance) {deadline : Nat} {wait : Duration} {f : Fault}
    (hp : g.seen.phase = .starting ∨ g.seen.phase = .restarting)
    (hf : Coordinator.waitedFault g.seen.phase wait = f) (hd : g.time ≤ deadline)
    (hlate : g.OnTheWay → g.time = deadline → g.Decides wait deadline (.ofFault f)) :
    (g.seen.admission g.time deadline wait = .wait ∧ g.OnTheWay ∧ g.time < deadline) ∨
      ∃ f, g.seen.admission g.time deadline wait = .refuse f ∧ g.Decides wait deadline (.ofFault f) := by
  have hadmission : g.seen.admission g.time deadline wait =
      if g.seen.isClearing then .refuse Coordinator.clearingFault
      else if deadline ≤ g.time then .refuse f else .wait := by
    unfold Coordinator.admission
    rcases hp with hp | hp <;> simp only [hp, ← hf]
  rw [hadmission]
  by_cases hc : g.seen.isClearing = true
  · rw [if_pos hc]
    exact .inr ⟨_, rfl, .clearing hp ((isClearing_iff _).mp hc)⟩
  · rw [if_neg hc]
    have hw : g.OnTheWay := ⟨hp, hc ∘ (isClearing_iff _).mpr⟩
    by_cases ht : deadline ≤ g.time
    · rw [if_pos ht]
      exact .inr ⟨_, rfl, hlate hw (Nat.le_antisymm hd ht)⟩
    · rw [if_neg ht]
      exact .inl ⟨rfl, hw, Nat.lt_of_not_le ht⟩

/-- A look that is not too late lets a visit wait, refuses it or lets it in. -/
theorem admission_cases (g : Glance) {deadline : Nat} (wait : Duration) (hd : g.time ≤ deadline) :
    (g.seen.admission g.time deadline wait = .wait ∧ g.OnTheWay ∧ g.time < deadline) ∨
      (∃ f, g.seen.admission g.time deadline wait = .refuse f ∧
        g.Decides wait deadline (.ofFault f)) ∨
      ∃ id, g.seen.admission g.time deadline wait = .enter id ∧
        g.Decides wait deadline (.result (.ok (.string id))) := by
  cases hphase : g.seen.phase with
  | ready =>
    simp only [Coordinator.admission, hphase]
    cases hh : g.seen.handle with
    | none => exact .inr (.inl ⟨_, rfl, .missing hphase hh⟩)
    | some id => exact .inr (.inr ⟨id, rfl, .ready hphase hh⟩)
  | failed =>
    simp only [Coordinator.admission, hphase]
    exact .inr (.inl ⟨_, rfl, .failed hphase⟩)
  | uninitialized =>
    simp only [Coordinator.admission, hphase]
    exact .inr (.inl ⟨_, rfl, .notRunning hphase⟩)
  | starting =>
    have hf : Coordinator.waitedFault g.seen.phase wait =
        .timeout ("language server still starting after " ++ wait.text) := by
      rw [hphase]
      rfl
    exact (g.admission_of_transition (.inl hphase) hf hd (.starting hphase)).imp_right .inl
  | restarting =>
    have hf : Coordinator.waitedFault g.seen.phase wait =
        .timeout ("language server still restarting after " ++ wait.text) := by
      rw [hphase]
      rfl
    exact (g.admission_of_transition (.inr hphase) hf hd (.restarting hphase)).imp_right .inl

end Glance

namespace Rehearsal

/-- The look of a visit that this action is, if it is one. -/
def glance? (n : Nat) (r : Rehearsal) : Action → Option Glance
  | .run (.visit m) =>
    if m = n then
      (r.visits[n]?).bind fun v =>
        if v.stay.isWaiting then (r.player? v.seat).map fun p => ⟨r.clock, p.coordinator⟩ else none
    else none
  | _ => none

def glances (n : Nat) : Rehearsal → List Action → List Glance
  | _, [] => []
  | r, a :: rest => (r.glance? n a).toList ++ glances n (r.act a) rest

/-- Looks of a visit that came at `since`, after each of which it went on waiting. -/
def Held (since deadline : Nat) (log : List Glance) : Prop :=
  ∀ g ∈ log, g.OnTheWay ∧ since ≤ g.time ∧ g.time < deadline

/-- What a visit has been told after these looks, if anything. -/
inductive Fared (wait : Duration) (since deadline : Nat) (log : List Glance) : Option Verdict → Prop
  | waiting (hlog : Held since deadline log) : Fared wait since deadline log none
  | answered {before : List Glance} {g : Glance} {v : Verdict} (hlog : log = before ++ [g])
      (hheld : Held since deadline before) (hsince : since ≤ g.time) (hdeadline : g.time ≤ deadline)
      (hv : g.Decides wait deadline v) : Fared wait since deadline log (some v)

/-! ## What holds of a visit all the time -/

section
variable {n : Nat} {s : Seat} {since : Nat} {wait : Duration} {r r' : Rehearsal} {v : Visit}
  {log : List Glance}

/-- The visit is there with its deadline, and so is what it waits for. -/
structure Attends (n : Nat) (s : Seat) (since : Nat) (wait : Duration) (r : Rehearsal) (v : Visit) :
    Prop where
  sound : r.Sound
  present : (r.player? s).isSome
  lone : ∀ a ∈ r.alarms, ∀ x, a.delivery ≠ .sequel n x
  later : since ≤ r.clock
  visit : r.visits[n]? = some v
  purpose : v.purpose = .serverHandle
  seat : v.seat = s
  waits : v.wait = wait
  deadline : v.deadline = since + wait.ticks

/-- Where it stands: it is about to look, it waits for a change since its last look, or it is over. -/
inductive Standing (n : Nat) (s : Seat) (since : Nat) (wait : Duration) (r : Rehearsal) (v : Visit)
    (log : List Glance) : Prop
  | awake (hstay : v.stay = .waiting) (hin : v.incoming = none)
      (hclock : r.clock ≤ since + wait.ticks) (hlog : Held since (since + wait.ticks) log)
      (hawake : .visit n ∈ r.runnable)
  | asleep {before : List Glance} {g : Glance} (hstay : v.stay = .waiting) (hin : v.incoming = none)
      (hclock : r.clock ≤ since + wait.ticks) (hlog : Held since (since + wait.ticks) log)
      (hw : v.watching = true) (halarm : ⟨since + wait.ticks, .deadline n⟩ ∈ r.alarms)
      (hlast : log = before ++ [g]) (hseen : r.outlook? s = some g.seen.outlook)
  | told {x : Verdict} (hstay : v.stay = .left x)
      (hfared : Fared wait since (since + wait.ticks) log (some x))

theorem Attends.of_spares (h : Attends n s since wait r v) (hr : Spares n r r') :
    Attends n s since wait r' v where
  sound := hr.sound h.sound
  present := (hr.seats s).trans h.present
  lone a ha x hx := by
    have hc : a.concerns n = true := by simp [Alarm.concerns, hx]
    exact h.lone a ((hr.alarms a hc).mp ha) x hx
  later := hr.clock.symm ▸ h.later
  visit := hr.visit v h.visit h.purpose
  purpose := h.purpose
  seat := h.seat
  waits := h.waits
  deadline := h.deadline

theorem Standing.of_spares (hs : Standing n s since wait r v log) (h : Attends n s since wait r v)
    (hr : Spares n r r') : Standing n s since wait r' v log := by
  cases hs with
  | awake hstay hin hclock hlog hawake =>
    exact .awake hstay hin (hr.clock.symm ▸ hclock) hlog (hr.awake hawake)
  | asleep hstay hin hclock hlog hw halarm hlast hseen =>
    rcases hr.noticed h.sound v h.visit h.purpose hw with hsame | hawake
    · rw [h.seat] at hsame
      exact .asleep hstay hin (hr.clock.symm ▸ hclock) hlog hw
        ((hr.alarms _ (by simp [Alarm.concerns])).mpr halarm) hlast (hsame.trans hseen)
    · exact .awake hstay hin (hr.clock.symm ▸ hclock) hlog hawake
  | told hstay hfared => exact .told hstay hfared

/-! ## Looking -/

theorem look_serverHandle {p : Player} (hp : r.player? v.seat = some p)
    (hpur : v.purpose = .serverHandle) (hs : v.stay = .waiting) :
    r.look n v =
      let seen := { r with alarms := r.alarms.filter fun a => !a.isDeadlineOf n }
      match p.coordinator.admission r.clock v.deadline v.wait with
      | .wait =>
        (seen.modifyVisit n fun v => { v with stay := .waiting, watching := true }).setAlarm v.deadline
          (.deadline n)
      | .refuse f =>
        seen.modifyVisit n fun v => { v with stay := .left (.ofFault f), watching := false }
      | .enter id =>
        (seen.modifyVisit n fun v => { v with stay := .working id, watching := false }).give n
          (.result (.ok (.string id))) := by
  have hguest : v.guest.command = none := by simp [Visit.guest, Visit.command?, hpur]
  have hstep : v.guest.step Verdict.ofFault p.coordinator r.clock v.stay =
      (.ofAdmission Verdict.ofFault (p.coordinator.admission r.clock v.deadline v.wait), []) := by
    simp only [Guest.step, hs, Guest.look, hguest]
    simp only [Visit.guest]
    cases p.coordinator.admission r.clock v.deadline v.wait <;> rfl
  simp only [look, hp, hstep, List.foldl_nil]
  cases p.coordinator.admission r.clock v.deadline v.wait with
  | enter id =>
    simp only [Stay.ofAdmission, useServer, hpur, Stay.isWaiting]
    split <;> simp_all
  | refuse f => rfl
  | wait => rfl

theorem Attends.modifyVisit (h : Attends n s since wait r v) {f : Visit → Visit}
    (hpurpose : (f v).purpose = v.purpose) (hseat : (f v).seat = v.seat)
    (hwait : (f v).wait = v.wait) (hdeadline : (f v).deadline = v.deadline) :
    Attends n s since wait (r.modifyVisit n f) (f v) where
  sound := h.sound
  present := h.present
  lone := h.lone
  later := h.later
  visit := by simp [Rehearsal.modifyVisit, h.visit]
  purpose := hpurpose.trans h.purpose
  seat := hseat.trans h.seat
  waits := hwait.trans h.waits
  deadline := hdeadline.trans h.deadline

/-- Alarms may go, time may pass, and the tasks do not matter. -/
theorem Attends.of_alarms (h : Attends n s since wait r v) {clock : Nat} (hclock : r.clock ≤ clock)
    {alarms : List Alarm} (ha : ∀ a ∈ alarms, a ∈ r.alarms) (runnable : List Task) :
    Attends n s since wait { r with clock, alarms, runnable } v where
  sound := h.sound
  present := h.present
  lone a hmem := h.lone a (ha a hmem)
  later := Nat.le_trans h.later hclock
  visit := h.visit
  purpose := h.purpose
  seat := h.seat
  waits := h.waits
  deadline := h.deadline

theorem Attends.setDeadline (h : Attends n s since wait r v) (time : Nat) :
    Attends n s since wait (r.setAlarm time (.deadline n)) v where
  sound := h.sound
  present := h.present
  lone a ha x hx := by
    rcases List.mem_append.mp ha with ha | ha
    · exact h.lone a ha x hx
    · obtain rfl := List.mem_singleton.mp ha
      cases hx
  later := h.later
  visit := h.visit
  purpose := h.purpose
  seat := h.seat
  waits := h.waits
  deadline := h.deadline

theorem Held.snoc {deadline : Nat} (h : Held since deadline log) {g : Glance} (hw : g.OnTheWay)
    (hs : since ≤ g.time) (ht : g.time < deadline) : Held since deadline (log ++ [g]) := by
  intro x hx
  rcases List.mem_append.mp hx with hx | hx
  · exact h x hx
  · obtain rfl := List.mem_singleton.mp hx
    exact ⟨hw, hs, ht⟩

/-- A look ends the waiting, or the visit falls asleep until the next change or its deadline. -/
theorem Attends.look (h : Attends n s since wait r v) (hstay : v.stay = .waiting)
    (hin : v.incoming = none) (hclock : r.clock ≤ since + wait.ticks)
    (hlog : Held since (since + wait.ticks) log) {p : Player} (hp : r.player? s = some p) :
    ∃ v', Attends n s since wait (r.look n v) v' ∧
      Standing n s since wait (r.look n v) v' (log ++ [⟨r.clock, p.coordinator⟩]) := by
  have hseen := h.of_alarms (Nat.le_refl r.clock)
    (fun a (ha : a ∈ r.alarms.filter fun a => !a.isDeadlineOf n) => (List.mem_filter.mp ha).1)
    r.runnable
  rw [look_serverHandle (h.seat ▸ hp) h.purpose hstay, h.deadline, h.waits]
  rcases Glance.admission_cases ⟨r.clock, p.coordinator⟩ wait hclock with
    ⟨hadmission, hway, ht⟩ | ⟨f, hadmission, hdecides⟩ | ⟨id, hadmission, hdecides⟩
  · simp only at hadmission
    simp only [hadmission]
    refine ⟨{ v with stay := .waiting, watching := true },
      (hseen.modifyVisit rfl rfl rfl rfl).setDeadline _, ?_⟩
    refine .asleep rfl hin hclock (hlog.snoc hway h.later ht) rfl (by simp [setAlarm]) rfl ?_
    have hplayer : r.outlook? s = some p.coordinator.outlook := by simp [outlook?, hp]
    exact hplayer
  · simp only at hadmission
    simp only [hadmission]
    refine ⟨{ v with stay := .left (.ofFault f), watching := false },
      hseen.modifyVisit rfl rfl rfl rfl, ?_⟩
    exact .told rfl (.answered rfl hlog h.later hclock hdecides)
  · simp only at hadmission
    simp only [hadmission]
    have hworking := hseen.modifyVisit (f := fun v => { v with stay := .working id, watching := false })
      rfl rfl rfl rfl
    refine ⟨_, hworking.modifyVisit rfl rfl rfl rfl, ?_⟩
    exact .told rfl (.answered rfl hlog h.later hclock hdecides)

theorem runVisit_of_waiting (h : Attends n s since wait r v) (hstay : v.stay = .waiting)
    (hin : v.incoming = none) : r.runVisit n = r.look n v := by
  simp only [runVisit, h.visit, hstay, hin, h.purpose]

theorem runVisit_of_left (hv : r.visits[n]? = some v) {x : Verdict} (hstay : v.stay = .left x) :
    r.runVisit n = r := by
  simp only [runVisit, hv, hstay]

theorem glance?_of_waiting (hv : r.visits[n]? = some v) (hstay : v.stay = .waiting) {p : Player}
    (hp : r.player? v.seat = some p) :
    r.glance? n (.run (.visit n)) = some ⟨r.clock, p.coordinator⟩ := by
  simp [glance?, hv, hstay, hp, Stay.isWaiting]

theorem glance?_of_left (hv : r.visits[n]? = some v) {x : Verdict} (hstay : v.stay = .left x) :
    r.glance? n (.run (.visit n)) = none := by
  simp [glance?, hv, hstay, Stay.isWaiting]

theorem glance?_of_ne {a : Action} (ha : a ≠ .run (.visit n)) : r.glance? n a = none := by
  cases a with
  | run t =>
    cases t with
    | worker s => rfl
    | visit m =>
      have hm : m ≠ n := by
        rintro rfl
        exact ha rfl
      simp [glance?, hm]
  | _ => rfl

/-! ## Steps -/

/-- The visit waits, or it has been told what its last look decided. -/
def InHand (n : Nat) (s : Seat) (since : Nat) (wait : Duration) (r : Rehearsal) (log : List Glance) :
    Prop :=
  ∃ v, Attends n s since wait r v ∧ Standing n s since wait r v log

theorem InHand.of_spares (h : InHand n s since wait r log) (hr : Spares n r r') :
    InHand n s since wait r' log := by
  obtain ⟨v, hv, hs⟩ := h
  exact ⟨v, hv.of_spares hr, hs.of_spares hv hr⟩

/-- Whether it was woken or not, a visit that runs and is not over looks. -/
theorem InHand.run (h : InHand n s since wait r log) :
    InHand n s since wait (r.act (.run (.visit n)))
      (log ++ (r.glance? n (.run (.visit n))).toList) := by
  obtain ⟨v, hv, hs⟩ := h
  have hleft := hv.of_alarms (Nat.le_refl r.clock) (fun _ ha => ha) (r.runnable.erase (.visit n))
  obtain ⟨p, hp⟩ := Option.isSome_iff_exists.mp hv.present
  have hlooks (hstay : v.stay = .waiting) (hin : v.incoming = none)
      (hclock : r.clock ≤ since + wait.ticks) (hlog : Held since (since + wait.ticks) log) :
      InHand n s since wait (r.act (.run (.visit n)))
        (log ++ (r.glance? n (.run (.visit n))).toList) := by
    have hruns : r.act (.run (.visit n)) =
        Rehearsal.look { r with runnable := r.runnable.erase (.visit n) } n v :=
      runVisit_of_waiting hleft hstay hin
    rw [hruns, glance?_of_waiting hv.visit hstay (hv.seat ▸ hp)]
    exact hleft.look hstay hin hclock hlog hp
  cases hs with
  | awake hstay hin hclock hlog hawake => exact hlooks hstay hin hclock hlog
  | asleep hstay hin hclock hlog hw halarm hlast hseen => exact hlooks hstay hin hclock hlog
  | told hstay hfared =>
    have hruns : r.act (.run (.visit n)) = { r with runnable := r.runnable.erase (.visit n) } :=
      runVisit_of_left hleft.visit hstay
    rw [hruns, glance?_of_left hv.visit hstay, Option.toList_none, List.append_nil]
    exact ⟨v, hleft, .told hstay hfared⟩

theorem mem_runnable_foldl_deliver {time : Nat} {due : List Alarm}
    (hd : ∀ a ∈ due, ∀ x, a.delivery ≠ .sequel n x) (h : ⟨time, .deadline n⟩ ∈ due) (r : Rehearsal) :
    .visit n ∈ (due.foldl (fun r a => r.deliver a.delivery) r).runnable := by
  induction due generalizing r with
  | nil => cases h
  | cons a due ih =>
    have hrest : ∀ b ∈ due, ∀ x, b.delivery ≠ .sequel n x :=
      fun b hb => hd b (List.mem_cons_of_mem _ hb)
    rcases List.mem_cons.mp h with rfl | h
    · exact (spares_foldl_deliver hrest _).awake (mem_runnable_wake r _)
    · exact ih hrest h _

/-- No alarm rings too late for a visit that is asleep, and its own one wakes it. -/
theorem InHand.ring (h : InHand n s since wait r log) (hidle : r.runnable = []) {time : Nat}
    (htime : ∀ a ∈ r.alarms, r.clock ≤ a.time → time ≤ a.time) :
    InHand n s since wait (r.ring time) log := by
  obtain ⟨v, hv, hs⟩ := h
  have hadvance : Attends n s since wait (r.advance time) v :=
    hv.of_alarms (Nat.le_max_left r.clock time) (fun _ ha => mem_alarms_of_advance ha) r.runnable
  have hlone : ∀ a ∈ r.due time, ∀ x, a.delivery ≠ .sequel n x :=
    fun a ha => hv.lone a (mem_alarms_of_due ha)
  rw [ring_eq]
  have hspares := spares_foldl_deliver hlone (r.advance time)
  cases hs with
  | awake hstay hin hclock hlog hawake => simp [hidle] at hawake
  | asleep hstay hin hclock hlog hw halarm hlast hseen =>
    have hlate : (r.advance time).clock ≤ since + wait.ticks :=
      Nat.max_le.mpr ⟨hclock, htime _ halarm hclock⟩
    -- Its own alarm rings and wakes it, or that alarm is still set.
    by_cases hdue : since + wait.ticks ≤ time
    · have hrings : ⟨since + wait.ticks, .deadline n⟩ ∈ r.due time :=
        List.mem_filter.mpr ⟨halarm, decide_eq_true hdue⟩
      exact ⟨v, hadvance.of_spares hspares, .awake hstay hin (hspares.clock ▸ hlate) hlog
        (mem_runnable_foldl_deliver hlone hrings _)⟩
    · have hstill : ⟨since + wait.ticks, .deadline n⟩ ∈ (r.advance time).alarms :=
        List.mem_filter.mpr ⟨halarm, by simpa using hdue⟩
      have hasleep : InHand n s since wait (r.advance time) log :=
        ⟨v, hadvance, .asleep hstay hin hlate hlog hw hstill hlast hseen⟩
      exact hasleep.of_spares hspares
  | told hstay hfared => exact ⟨v, hadvance.of_spares hspares, .told hstay hfared⟩

theorem InHand.pass (h : InHand n s since wait r log) (hidle : r.runnable = []) {time : Nat}
    (htime : ∀ a ∈ r.alarms, time < a.time) :
    InHand n s since wait (r.act (.pass time)) log := by
  obtain ⟨v, hv, hs⟩ := h
  have hlater := hv.of_alarms (Nat.le_max_left r.clock time) (fun _ ha => ha) r.runnable
  cases hs with
  | awake hstay hin hclock hlog hawake => simp [hidle] at hawake
  | asleep hstay hin hclock hlog hw halarm hlast hseen =>
    have hlate : max r.clock time ≤ since + wait.ticks :=
      Nat.max_le.mpr ⟨hclock, Nat.le_of_lt (htime _ halarm)⟩
    exact ⟨v, hlater, .asleep hstay hin hlate hlog hw halarm hlast hseen⟩
  | told hstay hfared => exact ⟨v, hlater, .told hstay hfared⟩

theorem InHand.act (h : InHand n s since wait r log) {a : Action} (ha : r.Allows a) :
    InHand n s since wait (r.act a) (log ++ (r.glance? n a).toList) := by
  by_cases hrun : a = .run (.visit n)
  · rw [hrun]
    exact h.run
  · rw [glance?_of_ne hrun, Option.toList_none, List.append_nil]
    cases a with
    | ring =>
      simp only [Rehearsal.act]
      split
      · next t ht =>
        refine h.ring ha fun x hx hclock => Nat.max_le.mpr ⟨hclock, ?_⟩
        obtain ⟨t', ht', hle⟩ := nextAlarm?_le hx
        obtain rfl := Option.some.inj (ht.symm.trans ht')
        exact hle
      · exact h
    | pass time => exact h.pass ha.1 ha.2
    | _ => exact h.of_spares (spares_act hrun (by simp) (by simp))

theorem InHand.actAll (h : InHand n s since wait r log) {acts : List Action}
    (hacts : r.AllowsAll acts) :
    InHand n s since wait (r.actAll acts) (log ++ r.glances n acts) := by
  induction acts generalizing r log with
  | nil => simpa [glances, Rehearsal.actAll] using h
  | cons a acts ih =>
    obtain ⟨ha, hrest⟩ := hacts
    have hnext := ih (h.act ha) hrest
    rwa [List.append_assoc] at hnext

/-- Who comes is awake. -/
theorem Orderly.inHand_visit (h : r.Orderly) (hs : (r.player? s).isSome) (wait : Duration) :
    InHand r.visits.length s r.clock wait (r.visit s .serverHandle wait).2 [] := by
  let v : Visit := { seat := s, purpose := .serverHandle, wait, deadline := r.clock + wait.ticks }
  have hwake := spares_wake r.visits.length { r with visits := r.visits ++ [v] }
    (.visit r.visits.length)
  have hcomes : Attends r.visits.length s r.clock wait { r with visits := r.visits ++ [v] } v := by
    refine ⟨h.sound, hs, fun a ha x hx => ?_, Nat.le_refl _, by simp, rfl, rfl, rfl, rfl⟩
    exact Nat.lt_irrefl _ (h.expected a ha _ (by simp [Alarm.concerns, hx]))
  refine ⟨v, hcomes.of_spares hwake, .awake rfl rfl ?_ (by simp [Held]) ?_⟩
  · rw [Rehearsal.visit, hwake.clock]
    exact Nat.le_add_right _ _
  · exact mem_runnable_wake _ _

/-! ## At any time -/

theorem verdict?_of_visit (hv : r.visits[n]? = some v) : r.verdict? n = v.stay.answer? := by
  simp [verdict?, hv, Visit.verdict]

/-- Nobody who has not been told anything sleeps through a change. -/
def Alert (n : Nat) (s : Seat) (r : Rehearsal) (log : List Glance) : Prop :=
  .visit n ∈ r.runnable ∨
    ∃ before g, log = before ++ [g] ∧ r.outlook? s = some g.seen.outlook

theorem InHand.fared (h : InHand n s since wait r log) :
    Fared wait since (since + wait.ticks) log (r.verdict? n) := by
  obtain ⟨v, hv, hs⟩ := h
  rw [verdict?_of_visit hv.visit]
  cases hs with
  | awake hstay hin hclock hlog hawake =>
    rw [hstay]
    exact .waiting hlog
  | asleep hstay hin hclock hlog hw halarm hlast hseen =>
    rw [hstay]
    exact .waiting hlog
  | told hstay hfared =>
    rw [hstay]
    exact hfared

theorem InHand.of_undecided (h : InHand n s since wait r log) (hn : r.verdict? n = none) :
    r.clock ≤ since + wait.ticks ∧ Alert n s r log ∧
      (r.runnable = [] → ∃ t, r.nextAlarm? = some t ∧ t ≤ since + wait.ticks) := by
  obtain ⟨v, hv, hs⟩ := h
  cases hs with
  | awake hstay hin hclock hlog hawake =>
    refine ⟨hclock, .inl hawake, fun hidle => ?_⟩
    simp [hidle] at hawake
  | asleep hstay hin hclock hlog hw halarm hlast hseen =>
    exact ⟨hclock, .inr ⟨_, _, hlast, hseen⟩, fun _ => nextAlarm?_le halarm⟩
  | told hstay hfared => simp [verdict?_of_visit hv.visit, hstay, Stay.answer?] at hn

/-- As long as a visit that is awake has not looked, the clock stands still. -/
theorem InHand.clock_of_awake (h : InHand n s since wait r log) (hn : r.verdict? n = none)
    (hawake : .visit n ∈ r.runnable) {acts : List Action} (hacts : r.AllowsAll acts)
    (hunseen : r.glances n acts = []) : (r.actAll acts).clock = r.clock := by
  induction acts generalizing r with
  | nil => rfl
  | cons a acts ih =>
    obtain ⟨ha, hrest⟩ := hacts
    obtain ⟨hglance, hunseen⟩ := List.append_eq_nil_iff.mp hunseen
    obtain ⟨v, hv, hs⟩ := h
    have hstay : v.stay = .waiting := by
      cases hs with
      | awake hstay | asleep hstay => exact hstay
      | told hstay => simp [verdict?_of_visit hv.visit, hstay, Stay.answer?] at hn
    have hrun : a ≠ .run (.visit n) := by
      rintro rfl
      obtain ⟨p, hp⟩ := Option.isSome_iff_exists.mp hv.present
      simp [glance?_of_waiting hv.visit hstay (hv.seat ▸ hp)] at hglance
    have hbusy : r.runnable ≠ [] := List.ne_nil_of_mem hawake
    have hspares : Spares n r (r.act a) := by
      refine spares_act hrun ?_ ?_
      · rintro rfl
        exact hbusy ha
      · rintro time rfl
        exact hbusy ha.1
    have hn' : (r.act a).verdict? n = none := by
      rw [verdict?_of_visit (hv.of_spares hspares).visit, hstay]
      rfl
    have hnext := ih ⟨v, hv.of_spares hspares, hs.of_spares hv hspares⟩ hn'
      (hspares.awake hawake) hrest hunseen
    exact hnext.trans hspares.clock

/-- Whatever happens by itself, the visit is told something by its deadline. -/
theorem InHand.inevitably (h : InHand n s since wait r log) (hclock : r.clock ≤ since + wait.ticks) :
    r.Inevitably fun q => (q.verdict? n).isSome ∧ q.clock ≤ since + wait.ticks := by
  have hundecided (q : Rehearsal) (hq : q.clock ≤ since + wait.ticks)
      (hP : ¬ ((q.verdict? n).isSome ∧ q.clock ≤ since + wait.ticks)) : q.verdict? n = none := by
    by_contra hsome
    exact hP ⟨Option.isSome_iff_ne_none.mpr hsome, hq⟩
  have hnext (q : Rehearsal) (hq : (∃ log, InHand n s since wait q log) ∧
      q.clock ≤ since + wait.ticks)
      (hP : ¬ ((q.verdict? n).isSome ∧ q.clock ≤ since + wait.ticks)) (hidle : q.runnable = []) :
      ∃ t, q.nextAlarm? = some t ∧ t ≤ since + wait.ticks := by
    obtain ⟨⟨log, hlog⟩, hq⟩ := hq
    exact (hlog.of_undecided (hundecided q hq hP)).2.2 hidle
  refine inevitably_of_limit (fun q hq => ?_) hnext (fun q a hq hP hown ha => ?_) r ⟨⟨log, h⟩, hclock⟩
  · obtain ⟨⟨log, v, hv, hs⟩, hq⟩ := hq
    exact hv.sound
  · obtain ⟨⟨log, hlog⟩, hle⟩ := hq
    refine ⟨⟨_, hlog.act ha⟩, ?_⟩
    obtain ⟨v, hv, hs⟩ := hlog
    rcases eases_or_later hown ha hv.sound (hnext q ⟨⟨log, v, hv, hs⟩, hle⟩ hP) with heases | hlater
    · exact heases.clock ▸ hle
    · exact hlater.2

/-- Waiting for a server ends by one deadline, whatever happens meanwhile: every look but the last
one finds the server on its way before the deadline, the last one decides what the visit is told, and
after the deadline it has been told something. As long as it has not, it is bound to be told something
by its deadline, it is awake or nothing has changed since it looked, and time does not pass before a
visit that is awake has looked. -/
theorem waits_until_deadline {r₀ : Rehearsal} (h₀ : r₀.Untouched) (before after : List Action)
    (s : Seat) (wait : Duration) (hs : ((r₀.actAll before).player? s).isSome)
    (hafter : ((r₀.actAll before).visit s .serverHandle wait).2.AllowsAll after) :
    let r := r₀.actAll before
    let n := r.visits.length
    let r₁ := (r.visit s .serverHandle wait).2
    let r' := r₁.actAll after
    let log := r₁.glances n after
    let deadline := r.clock + wait.ticks
    Fared wait r.clock deadline log (r'.verdict? n) ∧
    (deadline < r'.clock → (r'.verdict? n).isSome) ∧
    (r'.verdict? n = none →
      (r'.Inevitably fun q => (q.verdict? n).isSome ∧ q.clock ≤ deadline) ∧
      Alert n s r' log ∧
      (.visit n ∈ r'.runnable → ∀ more, r'.AllowsAll more → r'.glances n more = [] →
        (r'.actAll more).clock = r'.clock)) := by
  intro r n r₁ r' log deadline
  have hinHand : InHand n s r.clock wait r' log :=
    ((h₀.orderly.actAll before).inHand_visit hs wait).actAll hafter
  refine ⟨hinHand.fared, fun hlate => ?_, fun hn => ?_⟩
  · by_contra hnone
    have hn : r'.verdict? n = none := by simpa using hnone
    have hclock := (hinHand.of_undecided hn).1
    omega
  · obtain ⟨hclock, halert, -⟩ := hinHand.of_undecided hn
    refine ⟨hinHand.inevitably hclock, halert, fun hawake more hmore hunseen => ?_⟩
    exact hinHand.clock_of_awake hn hawake hmore hunseen

end

/-- A coordinator whose servers are ready after 60 milliseconds. -/
def tardy : Rehearsal where
  main :=
    { coordinator := Coordinator.fresh "main" "rcc" {}
      servers := [{ ready := { delay := 60, ending := .value () } }] }
  files := default

/-- The server is restarted as soon as it is ready; the visit looks then, goes on waiting, and gives
up at its deadline. -/
theorem waits_until_deadline_restarted :
    let before : List Action := [.request .main .activate, .run (.worker .main)]
    let after : List Action := [.run (.visit 1), .request .main (.restart .command), .ring,
      .run (.worker .main), .run (.visit 1), .ring, .run (.visit 1)]
    let r₁ := ((tardy.actAll before).visit .main .serverHandle (.ofMillis 100)).2
    r₁.AllowsAll after ∧
    (r₁.glances 1 after).map (fun g => (g.time, g.seen.phase)) =
      [(0, .starting), (60, .restarting), (100, .restarting)] ∧
    (r₁.actAll after).verdict? 1 =
      some (.ofFault (.timeout "language server still restarting after 100ms")) ∧
    Fared (.ofMillis 100) 0 100 (r₁.glances 1 after) ((r₁.actAll after).verdict? 1) := by
  intro before after r₁
  have huntouched : tardy.Untouched := by
    refine ⟨rfl, fun s p hp => ?_⟩
    cases s with
    | main =>
      obtain rfl := Option.some.inj hp
      exact ⟨rfl, rfl⟩
    | companion => cases hp
  have hafter : r₁.AllowsAll after := by decide
  have hfared := (waits_until_deadline huntouched before after .main (.ofMillis 100) rfl hafter).1
  have hnumber : (tardy.actAll before).visits.length = 1 := by decide
  have hclock : (tardy.actAll before).clock = 0 := by decide
  have hticks : (Duration.ofMillis 100).ticks = 100 := Duration.ticks_ofMillis 100
  rw [hnumber, hclock, hticks, Nat.zero_add] at hfared
  refine ⟨hafter, by decide, ?_, ?_⟩
  · subst r₁ after before
    rfl
  · exact hfared

end Rehearsal

end Supervisor
