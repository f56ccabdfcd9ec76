import Mathlib
import Supervisor.Event.Bus
/-!
# What a bus tells

A station is a bus with the receivers that were made of it. Whatever it is asked, the answer is in what
was asked before: which notices were published, which listeners were registered and not taken away, and
what a receiver has been told since it was made.
-/
namespace Supervisor.Bus

/-! ## The notices that are kept -/

/-- The bus has published `ns`, in order, and keeps the latest of them. -/
structure Keeps (b : Bus) (ns : List Notice) : Prop where
  count : b.count = ns.length
  latest : b.latest = ns.reverse.take b.historySize
  buffer : b.buffer = ns.reverse.take b.capacity

variable {b : Bus} {ns : List Notice}

theorem take_cons_take {α : Type} (x : α) (xs : List α) (k : Nat) :
    (x :: xs.take k).take k = (x :: xs).take k := by
  cases k with
  | zero => rfl
  | succ k => simp [List.take_take]

theorem Keeps.publish (h : b.Keeps ns) (n : Notice) : (b.publish n).Keeps (ns ++ [n]) where
  count := by simp [Bus.publish, h.count]
  latest := by simp [Bus.publish, h.latest, take_cons_take]
  buffer := by simp [Bus.publish, h.buffer, take_cons_take]

theorem Keeps.history (h : b.Keeps ns) :
    b.history none = (ns.drop (ns.length - b.historySize)).reverse := by
  rw [Bus.history, h.latest, List.take_reverse]

theorem le_powerFrom (n p fuel : Nat) : p ≤ powerFrom n p fuel := by
  induction fuel generalizing p with
  | zero => exact Nat.le_refl p
  | succ fuel ih =>
    unfold powerFrom
    split_ifs
    · exact Nat.le_refl p
    · exact Nat.le_trans (Nat.le_mul_of_pos_left p (by decide)) (ih (2 * p))

theorem le_powerFrom_of_le {n p fuel : Nat} (h : n ≤ p * 2 ^ fuel) : n ≤ powerFrom n p fuel := by
  induction fuel generalizing p with
  | zero => simpa [powerFrom] using h
  | succ fuel ih =>
    unfold powerFrom
    split_ifs with hp
    · exact hp
    · refine ih (h.trans_eq ?_)
      rw [Nat.pow_succ', ← Nat.mul_assoc, Nat.mul_comm p]

/-- The buffer is at least as large as was asked for, and holds something. -/
theorem le_capacity (capacity historySize : Nat) :
    max capacity 1 ≤ (withConfig capacity historySize).capacity := by
  refine Nat.max_le.mpr ⟨le_powerFrom_of_le ?_, le_powerFrom _ 1 _⟩
  rw [Nat.one_mul]
  exact Nat.lt_two_pow_self.le

/-! ## Reading -/

/-- How many notices a receiver has lost by now. -/
def missed (b : Bus) (r : Receiver) : Nat := b.oldest - r.next

theorem Keeps.missed_add (h : b.Keeps ns) {r : Receiver} (hr : r.next ≤ ns.length) :
    r.next + b.missed r ≤ ns.length ∧ ns.length - (r.next + b.missed r) ≤ b.capacity := by
  simp only [missed, oldest, h.count]
  omega

theorem Keeps.drain (h : b.Keeps ns) {r : Receiver} (hr : r.next ≤ ns.length) :
    b.drain r = (b.missed r, ns.drop (r.next + b.missed r), ⟨ns.length⟩) := by
  obtain ⟨hle, hroom⟩ := h.missed_add hr
  have hstart : max r.next b.oldest = r.next + b.missed r := by
    unfold missed
    omega
  simp only [Bus.drain, hstart, h.count, h.buffer, List.take_take, Nat.min_eq_left hroom]
  rw [Nat.add_sub_cancel_left, List.take_reverse, List.reverse_reverse, Nat.sub_sub_self hle]

theorem Keeps.receive (h : b.Keeps ns) {r : Receiver} (hr : r.next ≤ ns.length) :
    b.receive r =
      if 0 < b.missed r then (b.missed r, none, ⟨r.next + b.missed r⟩)
      else if r.next < ns.length then (0, ns[r.next]?, ⟨r.next + 1⟩)
      else (0, none, r) := by
  have hlag : r.next < b.oldest ↔ 0 < b.missed r := by
    unfold missed
    omega
  have holdest : 0 < b.missed r → b.oldest = r.next + b.missed r := by
    unfold missed
    omega
  simp only [Bus.receive, hlag, h.count]
  split_ifs with hmissed hnext
  · rw [holdest hmissed, Nat.add_sub_cancel_left]
  · obtain ⟨-, hroom⟩ := h.missed_add hr
    have hplace : ns.length - r.next - 1 < b.capacity := by omega
    rw [h.buffer, List.getElem?_take, if_pos hplace, List.getElem?_reverse (by omega)]
    congr 3
    omega
  · rfl

/-- To drain is to read until there is nothing more: first how many notices are lost, if any are, and
then one notice after the other. -/
theorem Keeps.drain_eq_receive (h : b.Keeps ns) {r : Receiver} (hr : r.next ≤ ns.length) :
    b.drain r = match b.receive r with
      | (0, none, _) => (0, [], r)
      | (0, some n, next) => (0, n :: (b.drain next).2.1, (b.drain next).2.2)
      | (lost + 1, _, next) => (lost + 1, (b.drain next).2) := by
  have hle := (h.missed_add hr).1
  have hlater : ∀ k, b.missed r ≤ k → b.missed ⟨r.next + k⟩ = 0 := fun k hk => by
    simp only [missed] at hk ⊢
    omega
  rw [h.drain hr, h.receive hr]
  cases hmissed : b.missed r with
  | zero =>
    rw [if_neg (Nat.lt_irrefl 0)]
    split_ifs with hnext
    · simp only [List.getElem?_eq_getElem hnext, h.drain (r := ⟨r.next + 1⟩) hnext,
        hlater 1 (by omega), Nat.add_zero, List.drop_eq_getElem_cons hnext]
    · have hend : r.next = ns.length := by omega
      simp only [hend, Nat.add_zero, List.drop_length]
      exact congrArg (fun n => (0, [], (⟨n⟩ : Receiver))) hend.symm
  | succ lost =>
    rw [hmissed] at hle
    simp only [if_pos (Nat.succ_pos lost), h.drain (r := ⟨r.next + (lost + 1)⟩) hle,
      hlater (lost + 1) hmissed.le, Nat.add_zero]

/-- A receiver reads on: it is told how many notices it has lost, and then gets what follows them. -/
structure ReadsOn (ns : List Notice) (r : Receiver) (lost : Nat) (got : List Notice) (r' : Receiver) :
    Prop where
  next : r'.next = r.next + lost + got.length
  within : r'.next ≤ ns.length
  got : got <+: ns.drop (r.next + lost)

theorem Keeps.readsOn_drain (h : b.Keeps ns) {r : Receiver} (hr : r.next ≤ ns.length) :
    ReadsOn ns r (b.drain r).1 (b.drain r).2.1 (b.drain r).2.2 := by
  have hle := (h.missed_add hr).1
  rw [h.drain hr]
  refine ⟨?_, le_refl _, List.prefix_refl _⟩
  simp only [List.length_drop]
  omega

theorem Keeps.readsOn_receive (h : b.Keeps ns) {r : Receiver} (hr : r.next ≤ ns.length) :
    ReadsOn ns r (b.receive r).1 (b.receive r).2.1.toList (b.receive r).2.2 := by
  have hle := (h.missed_add hr).1
  rw [h.receive hr]
  split_ifs with hmissed hnext
  · exact ⟨rfl, hle, List.nil_prefix⟩
  · rw [List.getElem?_eq_getElem hnext]
    exact ⟨rfl, hnext, ns.drop (r.next + 1), List.getElem_cons_drop hnext⟩
  · exact ⟨rfl, hr, List.nil_prefix⟩

/-! ## Stations -/

/-- What can be asked of a bus; receivers are numbered in the order in which they were made. -/
inductive Act
  | publish (n : Notice)
  | subscribe (kinds : Option (List EventKind))
  | unsubscribe (id : Nat)
  | history (limit : Option Nat)
  | counts
  | receiver
  | receive (i : Nat)
  | drain (i : Nat)

inductive Answer
  /-- The listeners to which the notice was delivered. -/
  | delivered (ids : List Nat)
  | issued (id : Nat)
  | removed (there : Bool)
  | latest (ns : List Notice)
  | counted (notices listeners : Nat)
  | made
  | read (lost : Nat) (got : List Notice)
  /-- There is no such receiver. -/
  | nobody

/-- A bus with the receivers that were made of it. -/
structure Station where
  bus : Bus
  receivers : List Receiver := []

namespace Station

/-- A receiver reads in a given way. -/
def read (s : Station) (i : Nat) (look : Receiver → Nat × List Notice × Receiver) : Answer × Station :=
  match s.receivers[i]? with
  | none => (.nobody, s)
  | some r =>
    let (lost, got, r') := look r
    (.read lost got, { s with receivers := s.receivers.set i r' })

def step (s : Station) : Act → Answer × Station
  | .publish n =>
    (.delivered ((s.bus.recipients n).map (·.id)), { s with bus := s.bus.publish n })
  | .subscribe kinds =>
    let (id, bus) := s.bus.subscribe kinds
    (.issued id, { s with bus })
  | .unsubscribe id =>
    let (there, bus) := s.bus.unsubscribe id
    (.removed there, { s with bus })
  | .history limit => (.latest (s.bus.history limit), s)
  | .counts => (.counted s.bus.count s.bus.listeners.length, s)
  | .receiver => (.made, { s with receivers := s.receivers ++ [s.bus.receiver] })
  | .receive i =>
    s.read i fun r =>
      let (lost, next, r') := s.bus.receive r
      (lost, next.toList, r')
  | .drain i => s.read i s.bus.drain

end Station

/-- What was asked, and the answer. -/
abbrev Entry := Act × Answer

/-- Asks, and writes down the answer. -/
def ask (past : List Entry × Station) (a : Act) : List Entry × Station :=
  (past.1 ++ [(a, (past.2.step a).1)], (past.2.step a).2)

/-- The log of a bus, and the station at its end. -/
def run (capacity historySize : Nat) (acts : List Act) : List Entry × Station :=
  acts.foldl ask ([], { bus := withConfig capacity historySize })

/-! ## What a log says -/

def Entry.published : Entry → List Notice
  | (.publish n, _) => [n]
  | _ => []

def Entry.isSubscription : Entry → Bool
  | (.subscribe _, _) => true
  | _ => false

/-- A listener that was there was taken away. -/
def Entry.isRemoval : Entry → Bool
  | (.unsubscribe _, .removed true) => true
  | _ => false

def Entry.isReceiver : Entry → Bool
  | (.receiver, _) => true
  | _ => false

/-- What a receiver was told: the number of notices it has lost, and the notices it got. -/
def Entry.told (i : Nat) : Entry → Nat × List Notice
  | (.receive j, .read lost got) | (.drain j, .read lost got) => if j = i then (lost, got) else (0, [])
  | _ => (0, [])

/-- The notices that were published, in order. -/
def published (log : List Entry) : List Notice := log.flatMap Entry.published

def subscriptions (log : List Entry) : Nat := log.countP Entry.isSubscription

def removals (log : List Entry) : Nat := log.countP Entry.isRemoval

def receivers (log : List Entry) : Nat := log.countP Entry.isReceiver

/-- All notices that a receiver got, in order. -/
def heard (i : Nat) (log : List Entry) : List Notice := log.flatMap fun e => (e.told i).2

/-- The number of notices that a receiver has lost. -/
def lost (i : Nat) (log : List Entry) : Nat := (log.map fun e => (e.told i).1).sum

/-- A listener was registered under an identifier, and has not been taken away since. -/
def Stands (log : List Entry) (id : Nat) (kinds : Option (List EventKind)) : Prop :=
  ∃ before answer after, log = before ++ (.subscribe kinds, answer) :: after ∧
    subscriptions before = id ∧ ∀ answer, (.unsubscribe id, answer) ∉ after

/-- What was asked since a receiver was made. -/
def Since (log : List Entry) (i : Nat) (after : List Entry) : Prop :=
  ∃ before answer, log = before ++ (.receiver, answer) :: after ∧ receivers before = i

/-- What a receiver has been told: it got notices of those that were published since it was made, in
their order, and it knows how many of them it has lost. -/
structure Told (since heard : List Notice) (lost : Nat) : Prop where
  inOrder : heard.Sublist since
  account : heard.length + lost ≤ since.length
  complete : lost = 0 → heard <+: since

/-- A receiver has been told everything up to now. -/
structure ToldAll (since heard : List Notice) (lost : Nat) : Prop extends Told since heard lost where
  account_eq : heard.length + lost = since.length
  exact : lost = 0 → heard = since

/-- The answer that is right after what was asked before. A receiver may lose notices only where more of
them waited for it than the bus was asked to keep. -/
def Right (capacity historySize : Nat) (log : List Entry) : Act → Answer → Prop
  | .publish n, .delivered ids =>
    ids.Nodup ∧ ∀ id, id ∈ ids ↔ ∃ kinds, Stands log id kinds ∧ (⟨id, kinds⟩ : Listener).wants n
  | .subscribe _, .issued id => id = subscriptions log
  | .unsubscribe id, .removed there => there ↔ ∃ kinds, Stands log id kinds
  | .history limit, .latest ns =>
    let kept := ((published log).drop ((published log).length - historySize)).reverse
    ns = limit.elim kept kept.take
  | .counts, .counted notices listeners =>
    notices = (published log).length ∧ listeners + removals log = subscriptions log
  | .receiver, .made => True
  | .receive i, .read k got =>
    ∃ after, Since log i after ∧ Told (published after) (heard i after ++ got) (lost i after + k) ∧
      (k = 0 → got = [] → ToldAll (published after) (heard i after) (lost i after)) ∧
      (0 < k → got = [] ∧ (heard i after).length + lost i after + max capacity 1 < (published after).length) ∧
      got.length ≤ 1
  | .drain i, .read k got =>
    ∃ after, Since log i after ∧ ToldAll (published after) (heard i after ++ got) (lost i after + k) ∧
      (0 < k → (heard i after).length + lost i after + max capacity 1 < (published after).length)
  | .receive i, .nobody | .drain i, .nobody => ∀ after, ¬Since log i after
  | _, _ => False

/-! ## One more entry -/

section
variable {log : List Entry} {e : Entry} {i id : Nat} {kinds : Option (List EventKind)}

theorem published_snoc : published (log ++ [e]) = published log ++ e.published := by
  simp [published]

theorem subscriptions_snoc :
    subscriptions (log ++ [e]) = subscriptions log + if e.isSubscription then 1 else 0 := by
  simp [subscriptions, List.countP_append, List.countP_singleton]

theorem removals_snoc : removals (log ++ [e]) = removals log + if e.isRemoval then 1 else 0 := by
  simp [removals, List.countP_append, List.countP_singleton]

theorem receivers_snoc : receivers (log ++ [e]) = receivers log + if e.isReceiver then 1 else 0 := by
  simp [receivers, List.countP_append, List.countP_singleton]

theorem heard_snoc : heard i (log ++ [e]) = heard i log ++ (e.told i).2 := by
  simp [heard]

theorem lost_snoc : lost i (log ++ [e]) = lost i log + (e.told i).1 := by
  simp [lost]

/-- An entry of a longer log is the last one, or an entry of the log. -/
theorem snoc_eq_append_cons {α : Type} {xs : List α} {x y : α} {before after : List α} :
    xs ++ [x] = before ++ y :: after ↔
      (after = [] ∧ before = xs ∧ y = x) ∨ ∃ after', after = after' ++ [x] ∧ xs = before ++ y :: after' := by
  constructor
  · intro h
    rcases List.eq_nil_or_concat after with rfl | ⟨after', z, rfl⟩
    · obtain ⟨rfl, hlast⟩ := List.append_inj' h rfl
      exact .inl ⟨rfl, rfl, (List.singleton_inj.mp hlast).symm⟩
    · have hsplit : xs ++ [x] = (before ++ y :: after') ++ [z] := by simpa using h
      obtain ⟨rfl, hlast⟩ := List.append_inj' hsplit rfl
      exact .inr ⟨after', by simp [List.singleton_inj.mp hlast], rfl⟩
  · rintro (⟨rfl, rfl, rfl⟩ | ⟨after', rfl, rfl⟩) <;> simp

theorem stands_snoc : Stands (log ++ [e]) id kinds ↔
    (Stands log id kinds ∧ e.1 ≠ .unsubscribe id) ∨ (e.1 = .subscribe kinds ∧ subscriptions log = id) := by
  constructor
  · rintro ⟨before, answer, after, hlog, hid, hlater⟩
    rcases snoc_eq_append_cons.mp hlog with ⟨rfl, rfl, rfl⟩ | ⟨after, rfl, rfl⟩
    · exact .inr ⟨rfl, hid⟩
    · refine .inl ⟨⟨before, answer, after, rfl, hid, fun a ha => hlater a (List.mem_append_left _ ha)⟩, ?_⟩
      intro he
      refine hlater e.2 (List.mem_append_right _ (List.mem_singleton.mpr ?_))
      rw [← he]
  · rintro (⟨⟨before, answer, after, rfl, hid, hlater⟩, he⟩ | ⟨he, hid⟩)
    · refine ⟨before, answer, after ++ [e], by simp, hid, fun a ha => ?_⟩
      rcases List.mem_append.mp ha with ha | ha
      · exact hlater a ha
      · exact he (congrArg Prod.fst (List.mem_singleton.mp ha)).symm
    · exact ⟨log, e.2, [], by rw [← he], hid, fun _ => List.not_mem_nil⟩

theorem Stands.lt (h : Stands log id kinds) : id < subscriptions log := by
  obtain ⟨before, answer, after, rfl, rfl, -⟩ := h
  simp only [subscriptions, List.countP_append, List.countP_cons, Entry.isSubscription, if_true]
  omega

theorem since_snoc {after : List Entry} : Since (log ++ [e]) i after ↔
    (∃ earlier, after = earlier ++ [e] ∧ Since log i earlier) ∨
      (after = [] ∧ e.1 = .receiver ∧ receivers log = i) := by
  constructor
  · rintro ⟨before, answer, hlog, hi⟩
    rcases snoc_eq_append_cons.mp hlog with ⟨rfl, rfl, rfl⟩ | ⟨earlier, rfl, rfl⟩
    · exact .inr ⟨rfl, rfl, hi⟩
    · exact .inl ⟨earlier, rfl, before, answer, rfl, hi⟩
  · rintro (⟨earlier, rfl, before, answer, rfl, hi⟩ | ⟨rfl, he, hi⟩)
    · exact ⟨before, answer, by simp, hi⟩
    · exact ⟨log, e.2, by rw [← he], hi⟩

theorem Since.lt {after : List Entry} (h : Since log i after) : i < receivers log := by
  obtain ⟨before, answer, rfl, rfl⟩ := h
  simp only [receivers, List.countP_append, List.countP_cons, Entry.isReceiver, if_true]
  omega

end

/-! ## The listeners -/

/-- The listeners are those that stand, and each of them is there once. -/
structure Registers (b : Bus) (log : List Entry) : Prop where
  issued : b.issued = subscriptions log
  stands : ∀ l, l ∈ b.listeners ↔ Stands log l.id l.kinds
  nodup : (b.listeners.map (·.id)).Nodup
  account : b.listeners.length + removals log = subscriptions log

variable {log : List Entry} {a : Act} {answer : Answer}

/-- Nobody comes or goes. -/
theorem Registers.idle {b' : Bus} (h : b.Registers log) (hlisteners : b'.listeners = b.listeners)
    (hissued : b'.issued = b.issued) (hcome : ∀ kinds, a ≠ .subscribe kinds)
    (hgo : ∀ id, a ≠ .unsubscribe id) : b'.Registers (log ++ [(a, answer)]) := by
  have hcame : Entry.isSubscription (a, answer) = false := by
    cases a <;> first | rfl | exact absurd rfl (hcome _)
  have hgone : Entry.isRemoval (a, answer) = false := by
    cases a <;> first | rfl | exact absurd rfl (hgo _)
  refine ⟨?_, fun l => ?_, by rw [hlisteners]; exact h.nodup, ?_⟩
  · simp [subscriptions_snoc, hcame, hissued, h.issued]
  · simp [hlisteners, h.stands, stands_snoc, hcome, hgo]
  · simp [subscriptions_snoc, removals_snoc, hcame, hgone, hlisteners, h.account]

theorem Registers.subscribe (h : b.Registers log) (kinds : Option (List EventKind)) :
    (b.subscribe kinds).2.Registers (log ++ [(.subscribe kinds, answer)]) := by
  have hnew : ∀ l ∈ b.listeners, l.id ≠ b.issued := by
    intro l hl
    have hlt := ((h.stands l).mp hl).lt
    rw [h.issued]
    omega
  refine ⟨?_, fun l => ?_, ?_, ?_⟩
  · simp [Bus.subscribe, subscriptions_snoc, Entry.isSubscription, h.issued]
  · simp only [Bus.subscribe, List.mem_append, List.mem_singleton, h.stands, stands_snoc, h.issued,
      ne_eq, reduceCtorEq, not_false_eq_true, and_true, Act.subscribe.injEq]
    refine or_congr_right ⟨fun hl => ?_, fun ⟨hkinds, hid⟩ => ?_⟩
    · rw [hl]
      exact ⟨rfl, rfl⟩
    · rw [hkinds, hid]
  · simp only [Bus.subscribe, List.map_append, List.map_singleton]
    refine List.nodup_append.mpr ⟨h.nodup, by simp, fun id hid other hother => ?_⟩
    obtain ⟨l, hl, rfl⟩ := List.mem_map.mp hid
    rw [List.mem_singleton.mp hother]
    exact hnew l hl
  · have haccount := h.account
    simp only [Bus.subscribe, List.length_append, List.length_singleton, subscriptions_snoc,
      removals_snoc, Entry.isSubscription, Entry.isRemoval, if_true, Bool.false_eq_true, if_false]
    omega

/-- Of listeners with different identifiers one at most is taken away. -/
theorem length_filter_id {ls : List Listener} (h : (ls.map (·.id)).Nodup) (id : Nat) :
    (ls.filter (·.id != id)).length + (if ls.any (·.id == id) then 1 else 0) = ls.length := by
  induction ls with
  | nil => rfl
  | cons l ls ih =>
    obtain ⟨hl, hls⟩ := List.nodup_cons.mp h
    have htail := ih hls
    rw [List.filter_cons, List.any_cons]
    by_cases hid : l.id = id
    · subst hid
      have hothers : ls.any (·.id == l.id) = false := by
        refine List.any_eq_false.mpr fun other hother heq => hl ?_
        exact List.mem_map.mpr ⟨other, hother, by simpa using heq⟩
      simpa [hothers] using htail
    · simp only [bne_iff_ne, ne_eq, hid, not_false_eq_true, if_true, List.length_cons,
        beq_eq_false_iff_ne.mpr hid, Bool.false_or]
      omega

theorem Registers.unsubscribe (h : b.Registers log) (id : Nat) :
    (b.unsubscribe id).2.Registers
      (log ++ [(.unsubscribe id, .removed (b.unsubscribe id).1)]) := by
  refine ⟨?_, fun l => ?_, ?_, ?_⟩
  · simp [Bus.unsubscribe, subscriptions_snoc, Entry.isSubscription, h.issued]
  · simp [Bus.unsubscribe, h.stands, stands_snoc, eq_comm (a := id)]
  · exact h.nodup.sublist (List.filter_sublist.map _)
  · have haccount := h.account
    have hfewer := length_filter_id h.nodup id
    simp only [Bus.unsubscribe, subscriptions_snoc, removals_snoc, Entry.isSubscription,
      Bool.false_eq_true, if_false]
    cases hthere : b.listeners.any (·.id == id) <;>
      simp only [hthere, Entry.isRemoval, if_true, Bool.false_eq_true, if_false] at hfewer ⊢ <;> omega

/-- What is told is right. -/
theorem Registers.there_iff (h : b.Registers log) (id : Nat) :
    (b.unsubscribe id).1 = true ↔ ∃ kinds, Stands log id kinds := by
  simp only [Bus.unsubscribe, List.any_eq_true, beq_iff_eq]
  constructor
  · rintro ⟨l, hl, rfl⟩
    exact ⟨l.kinds, (h.stands l).mp hl⟩
  · rintro ⟨kinds, hstands⟩
    exact ⟨⟨id, kinds⟩, (h.stands _).mpr hstands, rfl⟩

theorem Registers.recipients (h : b.Registers log) (n : Notice) :
    ((b.recipients n).map (·.id)).Nodup ∧ ∀ id, id ∈ (b.recipients n).map (·.id) ↔
      ∃ kinds, Stands log id kinds ∧ (⟨id, kinds⟩ : Listener).wants n := by
  refine ⟨h.nodup.sublist (List.filter_sublist.map _), fun id => ?_⟩
  simp only [Bus.recipients, List.mem_map, List.mem_filter, h.stands]
  constructor
  · rintro ⟨l, ⟨hstands, hwants⟩, rfl⟩
    exact ⟨l.kinds, hstands, hwants⟩
  · rintro ⟨kinds, hstands, hwants⟩
    exact ⟨⟨id, kinds⟩, ⟨hstands, hwants⟩, rfl⟩

/-! ## The receivers -/

/-- A receiver has come as far as it was told, among the notices published since it was made. -/
structure Follows (ns since heard : List Notice) (lost : Nat) (r : Receiver) : Prop where
  place : ∃ before, ns = before ++ since ∧ r.next = before.length + (heard.length + lost)
  within : r.next ≤ ns.length
  told : heard.Sublist (since.take (heard.length + lost))

section
variable {since heard got : List Notice} {lost k : Nat} {r r' : Receiver}

theorem Follows.account (h : Follows ns since heard lost r) : heard.length + lost ≤ since.length := by
  obtain ⟨before, rfl, hnext⟩ := h.place
  have hwithin := h.within
  rw [List.length_append] at hwithin
  omega

theorem Follows.append (h : Follows ns since heard lost r) (more : List Notice) :
    Follows (ns ++ more) (since ++ more) heard lost r := by
  obtain ⟨before, hns, hnext⟩ := h.place
  refine ⟨⟨before, by simp [hns], hnext⟩, h.within.trans (by simp), ?_⟩
  rw [List.take_append_of_le_length h.account]
  exact h.told

theorem Follows.readsOn (h : Follows ns since heard lost r) (hread : ReadsOn ns r k got r') :
    Follows ns since (heard ++ got) (lost + k) r' := by
  obtain ⟨before, rfl, hnext⟩ := h.place
  refine ⟨⟨before, rfl, ?_⟩, hread.within, ?_⟩
  · rw [hread.next, hnext, List.length_append]
    omega
  · have hgot : got <+: since.drop (heard.length + lost + k) := by
      have hprefix := hread.got
      rwa [hnext, Nat.add_assoc, List.drop_length_add_append] at hprefix
    have hlength : (heard ++ got).length + (lost + k) = (heard.length + lost + k) + got.length := by
      rw [List.length_append]
      omega
    rw [hlength, List.take_add, ← List.prefix_iff_eq_take.mp hgot]
    refine List.Sublist.append (h.told.trans ?_) (List.Sublist.refl got)
    exact List.take_sublist_take_left (by omega)

theorem Follows.told_right (h : Follows ns since heard lost r) : Told since heard lost where
  inOrder := h.told.trans (List.take_sublist _ _)
  account := h.account
  complete hlost := by
    have htold := h.told
    rw [hlost, Nat.add_zero] at htold
    rw [htold.eq_of_length_le (by simp)]
    exact List.take_prefix _ _

theorem Follows.toldAll (h : Follows ns since heard lost r) (hend : r.next = ns.length) :
    ToldAll since heard lost := by
  obtain ⟨before, rfl, hnext⟩ := h.place
  have haccount : heard.length + lost = since.length := by
    rw [List.length_append] at hend
    omega
  refine ⟨h.told_right, haccount, fun hlost => ?_⟩
  exact (h.told_right.complete hlost).eq_of_length (by omega)

/-- A receiver has lost notices only if more of them waited than the buffer holds. -/
theorem Follows.overrun (h : Follows ns since heard lost r) (hb : b.Keeps ns) (hm : 0 < b.missed r) :
    heard.length + lost + b.capacity < since.length := by
  obtain ⟨before, rfl, hnext⟩ := h.place
  simp only [missed, oldest, hb.count, List.length_append] at hm
  omega

end

/-! ## Runs -/

/-- A station is what its log says. -/
structure Tracks (capacity historySize : Nat) (log : List Entry) (s : Station) : Prop where
  keeps : s.bus.Keeps (published log)
  capacity : max capacity 1 ≤ s.bus.capacity
  historySize : s.bus.historySize = historySize
  registers : s.bus.Registers log
  receivers : s.receivers.length = receivers log
  follows : ∀ i r, s.receivers[i]? = some r → ∃ after, Since log i after ∧
    Follows (published log) (published after) (heard i after) (lost i after) r

section
variable {capacity historySize i : Nat} {s : Station}

/-- An entry that does not tell a receiver anything. -/
theorem follows_later {after : List Entry} {r : Receiver} {e : Entry} (hs : Since log i after)
    (hf : Follows (published log) (published after) (heard i after) (lost i after) r)
    (he : e.told i = (0, [])) : ∃ after, Since (log ++ [e]) i after ∧
      Follows (published (log ++ [e])) (published after) (heard i after) (lost i after) r := by
  refine ⟨after ++ [e], since_snoc.mpr (.inl ⟨after, rfl, hs⟩), ?_⟩
  rw [published_snoc, published_snoc, heard_snoc, lost_snoc, he, List.append_nil, Nat.add_zero]
  exact hf.append _

theorem follows_idle (h : Tracks capacity historySize log s) {e : Entry} (he : ∀ i, e.told i = (0, []))
    (r : Receiver) (hr : s.receivers[i]? = some r) : ∃ after, Since (log ++ [e]) i after ∧
      Follows (published (log ++ [e])) (published after) (heard i after) (lost i after) r := by
  obtain ⟨after, hsince, hfollows⟩ := h.follows i r hr
  exact follows_later hsince hfollows (he i)

theorem Tracks.read (h : Tracks capacity historySize log s) (ha : a = .receive i ∨ a = .drain i)
    {look : Receiver → Nat × List Notice × Receiver}
    (hlook : ∀ r, r.next ≤ (published log).length →
      ReadsOn (published log) r (look r).1 (look r).2.1 (look r).2.2) :
    Tracks capacity historySize (log ++ [(a, (s.read i look).1)]) (s.read i look).2 := by
  have hpublished : ∀ answer, published (log ++ [(a, answer)]) = published log := by
    rcases ha with rfl | rfl <;> simp [published_snoc, Entry.published]
  have hreceivers : ∀ answer, Bus.receivers (log ++ [(a, answer)]) = Bus.receivers log := by
    rcases ha with rfl | rfl <;> simp [receivers_snoc, Entry.isReceiver]
  have hidle : ∀ answer, s.bus.Registers (log ++ [(a, answer)]) := by
    intro answer
    refine h.registers.idle rfl rfl (fun kinds => ?_) fun id => ?_ <;>
      rcases ha with rfl | rfl <;> exact Act.noConfusion
  unfold Station.read
  split
  · next hnone =>
    have hquiet : ∀ j, Entry.told j (a, .nobody) = (0, []) := by
      rcases ha with rfl | rfl <;> exact fun _ => rfl
    refine ⟨(hpublished _).symm ▸ h.keeps, h.capacity, h.historySize, hidle _,
      h.receivers.trans (hreceivers _).symm, fun j => follows_idle h hquiet⟩
  · next r hr =>
    obtain ⟨after, hsince, hfollows⟩ := h.follows i r hr
    have hreads := hlook r hfollows.within
    rcases hresult : look r with ⟨k, got, r'⟩
    rw [hresult] at hreads
    have htold : ∀ j, Entry.told j (a, .read k got) = if i = j then (k, got) else (0, []) := by
      rcases ha with rfl | rfl <;> exact fun _ => rfl
    refine ⟨(hpublished _).symm ▸ h.keeps, h.capacity, h.historySize, hidle _, ?_, fun j other hj => ?_⟩
    · simp [h.receivers, hreceivers]
    · rw [List.getElem?_set] at hj
      split_ifs at hj with hij hlt
      · subst hij
        obtain rfl := Option.some.inj hj
        refine ⟨after ++ [(a, .read k got)], since_snoc.mpr (.inl ⟨after, rfl, hsince⟩), ?_⟩
        have hafter : published (after ++ [(a, .read k got)]) = published after := by
          rcases ha with rfl | rfl <;> simp [published_snoc, Entry.published]
        rw [hpublished, hafter, heard_snoc, lost_snoc, htold, if_pos rfl]
        exact hfollows.readsOn hreads
      · obtain ⟨after, hsince, hfollows⟩ := h.follows j other hj
        exact follows_later hsince hfollows (by rw [htold, if_neg hij])

/-- Nothing is published and no receiver is told anything or made. -/
theorem Tracks.idle (h : Tracks capacity historySize log s) {e : Entry} {b' : Bus}
    (hb : ∃ listeners issued, b' = { s.bus with listeners, issued }) (hp : e.published = [])
    (hr : e.isReceiver = false) (ht : ∀ i, e.told i = (0, [])) (hreg : b'.Registers (log ++ [e])) :
    Tracks capacity historySize (log ++ [e]) { s with bus := b' } := by
  obtain ⟨listeners, issued, rfl⟩ := hb
  obtain ⟨hcount, hlatest, hbuffer⟩ := h.keeps
  refine ⟨?_, h.capacity, h.historySize, hreg, ?_, fun i => follows_idle h ht⟩
  · rw [published_snoc, hp, List.append_nil]
    exact ⟨hcount, hlatest, hbuffer⟩
  · rw [receivers_snoc, hr]
    exact h.receivers

/-- What is asked keeps the station in step with its log. -/
theorem Tracks.step (h : Tracks capacity historySize log s) (a : Act) :
    Tracks capacity historySize (log ++ [(a, (s.step a).1)]) (s.step a).2 := by
  cases a with
  | receive i => exact h.read (.inl rfl) fun r hr => h.keeps.readsOn_receive hr
  | drain i => exact h.read (.inr rfl) fun r hr => h.keeps.readsOn_drain hr
  | subscribe kinds =>
    exact h.idle ⟨_, _, rfl⟩ rfl rfl (fun _ => rfl) (h.registers.subscribe kinds)
  | unsubscribe id =>
    exact h.idle ⟨_, _, rfl⟩ rfl rfl (fun _ => rfl) (h.registers.unsubscribe id)
  | history limit | counts =>
    exact h.idle ⟨_, _, rfl⟩ rfl rfl (fun _ => rfl) (h.registers.idle rfl rfl nofun nofun)
  | publish n =>
    refine ⟨?_, h.capacity, h.historySize, h.registers.idle rfl rfl nofun nofun, ?_,
      fun i => follows_idle h fun _ => rfl⟩
    · rw [published_snoc]
      exact h.keeps.publish n
    · rw [receivers_snoc]
      exact h.receivers
  | receiver =>
    obtain ⟨hcount, hlatest, hbuffer⟩ := h.keeps
    have hsame : published (log ++ [(.receiver, (s.step .receiver).1)]) = published log := by
      rw [published_snoc]
      exact List.append_nil _
    refine ⟨hsame.symm ▸ h.keeps, h.capacity, h.historySize, h.registers.idle rfl rfl nofun nofun, ?_,
      fun i r hr => ?_⟩
    · rw [receivers_snoc]
      exact List.length_append.trans (congrArg (· + 1) h.receivers)
    · rw [Station.step, List.getElem?_append] at hr
      split_ifs at hr with hlt
      · exact follows_idle h (fun _ => rfl) r hr
      · have hi : i - s.receivers.length < 1 := (List.getElem?_eq_some_iff.mp hr).1
        have hnew : Bus.receivers log = i := by
          have hlength := h.receivers
          omega
        refine ⟨[], since_snoc.mpr (.inr ⟨rfl, rfl, hnew⟩), ?_⟩
        rw [hsame, List.mem_singleton.mp (List.mem_of_getElem? hr), Bus.receiver, hcount]
        exact ⟨⟨published log, by simp [published], by simp [heard, lost]⟩, le_refl _, by simp [heard]⟩

theorem Tracks.not_since (h : Tracks capacity historySize log s) (hi : s.receivers[i]? = none)
    (after : List Entry) : ¬Since log i after := by
  intro hsince
  have hlt := hsince.lt
  have hle := List.getElem?_eq_none_iff.mp hi
  rw [h.receivers] at hle
  omega

theorem Tracks.right_receive (h : Tracks capacity historySize log s) (i : Nat) :
    Right capacity historySize log (.receive i) (s.step (.receive i)).1 := by
  simp only [Station.step, Station.read]
  split
  · next hnone => exact h.not_since hnone
  · next r hr =>
    obtain ⟨after, hsince, hfollows⟩ := h.follows i r hr
    have hreads := hfollows.readsOn (h.keeps.readsOn_receive hfollows.within)
    have hcapacity := h.capacity
    refine ⟨after, hsince, hreads.told_right, ?_⟩
    rw [h.keeps.receive hfollows.within]
    split_ifs with hmissed hnext
    · have hoverrun := hfollows.overrun h.keeps hmissed
      exact ⟨fun hnone => by omega, fun _ => ⟨rfl, by omega⟩, Nat.zero_le 1⟩
    · rw [List.getElem?_eq_getElem hnext]
      exact ⟨nofun, fun hk => (Nat.lt_irrefl 0 hk).elim, Nat.le_refl 1⟩
    · have hend : r.next = (published log).length := Nat.le_antisymm hfollows.within (Nat.not_lt.mp hnext)
      exact ⟨fun _ _ => hfollows.toldAll hend, fun hk => (Nat.lt_irrefl 0 hk).elim, Nat.zero_le 1⟩

theorem Tracks.right_drain (h : Tracks capacity historySize log s) (i : Nat) :
    Right capacity historySize log (.drain i) (s.step (.drain i)).1 := by
  simp only [Station.step, Station.read]
  split
  · next hnone => exact h.not_since hnone
  · next r hr =>
    obtain ⟨after, hsince, hfollows⟩ := h.follows i r hr
    have hreads := hfollows.readsOn (h.keeps.readsOn_drain hfollows.within)
    have hcapacity := h.capacity
    refine ⟨after, hsince, hreads.toldAll h.keeps.count, fun hk => ?_⟩
    rw [h.keeps.drain hfollows.within] at hk
    have hoverrun := hfollows.overrun h.keeps hk
    omega

/-- What is told is right. -/
theorem Tracks.right (h : Tracks capacity historySize log s) (a : Act) :
    Right capacity historySize log a (s.step a).1 := by
  cases a with
  | publish n => exact h.registers.recipients n
  | subscribe kinds => exact h.registers.issued
  | unsubscribe id => exact h.registers.there_iff id
  | history limit =>
    have hkept := h.keeps.history
    rw [h.historySize] at hkept
    cases limit with
    | none => exact hkept
    | some k => exact congrArg (List.take k) hkept
  | counts => exact ⟨h.keeps.count, h.registers.account⟩
  | receiver => trivial
  | receive i => exact h.right_receive i
  | drain i => exact h.right_drain i

theorem tracks_start (capacity historySize : Nat) :
    Tracks capacity historySize [] { bus := withConfig capacity historySize } where
  keeps := ⟨rfl, List.take_nil.symm, List.take_nil.symm⟩
  capacity := le_capacity capacity historySize
  historySize := rfl
  registers := ⟨rfl, fun l => ⟨nofun, fun ⟨_, _, _, h, _⟩ => by simp at h⟩, List.nodup_nil, rfl⟩
  receivers := rfl
  follows := nofun

theorem tracks_run (capacity historySize : Nat) (acts : List Act) :
    Tracks capacity historySize (run capacity historySize acts).1 (run capacity historySize acts).2 := by
  induction acts using List.reverseRecOn with
  | nil => exact tracks_start capacity historySize
  | append_singleton acts a ih =>
    rw [run, List.foldl_append]
    exact ih.step a

end

/-- Whatever is asked of a bus, in any order, every answer is right. -/
theorem answers_right (capacity historySize : Nat) (acts : List Act) :
    ∀ before a answer after, (run capacity historySize acts).1 = before ++ (a, answer) :: after →
      Right capacity historySize before a answer := by
  induction acts using List.reverseRecOn with
  | nil =>
    intro before a answer after h
    simp [run] at h
  | append_singleton acts last ih =>
    intro before a answer after h
    rw [run, List.foldl_append] at h
    rcases snoc_eq_append_cons.mp h with ⟨-, rfl, heq⟩ | ⟨after, -, hlog⟩
    · cases heq
      exact (tracks_run capacity historySize acts).right last
    · exact ih before a answer after hlog

/-- A bus that keeps one notice, a listener that wants one of two, and a receiver that is too slow. -/
def overrun : List Act :=
  [.receiver, .subscribe (some [.ready]), .publish { kind := .ready, message := "a" },
    .publish { kind := .stopped, message := "b" }, .unsubscribe 0, .unsubscribe 0, .drain 0]

def overrunLog : List Entry :=
  [(.receiver, .made), (.subscribe (some [.ready]), .issued 0),
    (.publish { kind := .ready, message := "a" }, .delivered [0]),
    (.publish { kind := .stopped, message := "b" }, .delivered []),
    (.unsubscribe 0, .removed true), (.unsubscribe 0, .removed false)]

theorem answers_right_overrun :
    (run 0 0 overrun).1 = overrunLog ++ [(.drain 0, .read 1 [{ kind := .stopped, message := "b" }])] ∧
      Right 0 0 overrunLog (.drain 0) (.read 1 [{ kind := .stopped, message := "b" }]) := by
  have hrun : (run 0 0 overrun).1 =
      overrunLog ++ [(.drain 0, .read 1 [{ kind := .stopped, message := "b" }])] := rfl
  exact ⟨hrun, answers_right 0 0 overrun _ _ _ _ hrun⟩

end Supervisor.Bus
