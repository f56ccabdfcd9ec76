import Supervisor.Proofs.Lsp.Lifecycle
/-!
# The protocol of a talk

What a client says to a server when calls are made one after another: the hello first, the greeting when
the server has answered, then what users request, and at last the shutdown request and the goodbye.
-/
namespace Supervisor.Lsp

/-- How far a talk has come. -/
inductive Chapter
  | opened
  | greeted
  | leaving
  | left
deriving DecidableEq

/-- A request that a user has asked for. -/
def IsAsked (moves : List Move) (u : Utterance) : Prop :=
  ∃ n method ps, u = .request n method ps ∧ .issue (.request method ps) ∈ moves

/-- What a client has said when the talk has come so far. -/
def Spoken (params : Json) (moves : List Move) (said : List Utterance) : Chapter → Prop
  | .opened => said = [hello params]
  | .greeted => ∃ asks, (∀ u ∈ asks, IsAsked moves u) ∧ said = hello params :: greeting :: asks
  | .leaving => ∃ asks n, (∀ u ∈ asks, IsAsked moves u) ∧
    said = hello params :: greeting :: (asks ++ [.request n "shutdown" none])
  | .left => ∃ asks n, (∀ u ∈ asks, IsAsked moves u) ∧
    said = hello params :: greeting :: (asks ++ [.request n "shutdown" none, goodbye])

section
variable {params : Json} {moves : List Move} {said : List Utterance}

theorem IsAsked.mono {u : Utterance} (h : IsAsked moves u) (m : Move) : IsAsked (moves ++ [m]) u := by
  obtain ⟨n, method, ps, hu, hm⟩ := h
  exact ⟨n, method, ps, hu, List.mem_append_left _ hm⟩

theorem Spoken.mono {ch : Chapter} (h : Spoken params moves said ch) (m : Move) :
    Spoken params (moves ++ [m]) said ch := by
  cases ch with
  | opened => exact h
  | greeted =>
    obtain ⟨asks, ha, h⟩ := h
    exact ⟨asks, fun u hu => (ha u hu).mono m, h⟩
  | leaving | left =>
    obtain ⟨asks, n, ha, h⟩ := h
    exact ⟨asks, n, fun u hu => (ha u hu).mono m, h⟩

theorem Spoken.greet (h : Spoken params moves said .opened) :
    Spoken params moves (said ++ [greeting]) .greeted := by
  have hsaid : said = [hello params] := h
  exact ⟨[], nofun, by rw [hsaid]; rfl⟩

theorem Spoken.ask (h : Spoken params moves said .greeted) (n : Nat) {method : String} {ps : Option Json}
    (hm : .issue (.request method ps) ∈ moves) :
    Spoken params moves (said ++ [.request n method ps]) .greeted := by
  obtain ⟨asks, ha, rfl⟩ := h
  refine ⟨asks ++ [.request n method ps], fun u hu => ?_, rfl⟩
  rcases List.mem_append.mp hu with hu | hu
  · exact ha u hu
  · exact ⟨n, method, ps, List.mem_singleton.mp hu, hm⟩

theorem Spoken.shutdown (h : Spoken params moves said .greeted) (n : Nat) :
    Spoken params moves (said ++ [.request n "shutdown" none]) .leaving := by
  obtain ⟨asks, ha, rfl⟩ := h
  exact ⟨asks, n, ha, rfl⟩

theorem Spoken.goodbye (h : Spoken params moves said .leaving) :
    Spoken params moves (said ++ [goodbye]) .left := by
  obtain ⟨asks, n, ha, rfl⟩ := h
  exact ⟨asks, n, ha, by simp⟩

end

theorem goodbye_ne_greeting : goodbye ≠ greeting := fun h =>
  absurd (congrArg Utterance.method h) (by decide)

namespace Talk

/-- The numbers of the requests that were said. -/
def ids (t : Talk) : List Nat := t.said.filterMap Utterance.id?

/-- Before the greeting is said the server has answered the hello, and not with an error. -/
def Greets (log : List Entry) : Prop :=
  ∀ before, before ++ [.said greeting] <+: log → ∃ answer, .did (.resolve 0 (.ok answer)) ∈ before

theorem Greets.snoc {log : List Entry} (h : Greets log) {entry : Entry}
    (hw : entry = .said greeting → ∃ answer, .did (.resolve 0 (.ok answer)) ∈ log) :
    Greets (log ++ [entry]) := by
  intro before hp
  rcases List.prefix_concat_iff.mp hp with heq | hp
  · obtain ⟨rfl, hlast⟩ := List.append_inj' heq rfl
    exact hw (List.singleton_inj.mp hlast).symm
  · exact h before hp

theorem Greets.dids {log : List Entry} (h : Greets log) (ds : List Deed) :
    Greets (log ++ ds.map .did) := by
  induction ds generalizing log with
  | nil => simpa using h
  | cons d ds ih =>
    rw [List.map_cons, List.append_cons]
    exact ih (h.snoc nofun)

/-- Someone has waited for the server, and it was ready. -/
def Succeeded (t : Talk) : Prop := .waitReady (.ended (.ok ())) ∈ t.calls

/-- The number of a request that is on its way is given out already, and higher than those before. -/
def Orders (t : Talk) (s : Sending) : Prop :=
  ∀ n, s.number? = some n → n < t.client.nextId ∧ ∀ m ∈ t.ids, m < n

/-- What holds at the points of the one call that is not over. -/
def Demand (t : Talk) (ch : Chapter) : Call → Prop
  | .spawn _ _ p => p = .ended (.ok ())
  | .waitReady (.await n) => n = 0 ∧ ch = .opened ∧ t.client.signal = none
  | .waitReady .greet => ch = .opened ∧ t.client.signal = none ∧ t.Welcomed
  | .waitReady .enter => ch = .greeted
  | .request _ _ (.sending s) => ch = .greeted ∧ t.Orders s
  | .stop (.sending s) =>
    ch = .greeted ∧ t.Orders s ∧ t.client.state.isStopping = true ∧ t.Succeeded ∧
      ∀ n f, s = .withdraw n f → t.client.channel ≠ .intact
  | .stop (.await _) => ch = .leaving
  | .stop .farewell => ch = .leaving ∨ ch = .greeted ∧ t.client.channel ≠ .intact
  | _ => True

/-- What holds at every moment of a talk in which calls are made one after another. -/
structure Polite (params : Json) (moves : List Move) (ch : Chapter) (t : Talk) : Prop where
  spawned : t.isSpawned = true
  spoken : Spoken params moves t.said ch
  signal : ∀ n, t.client.signal = some n → n = 0 ∧ ch = .opened
  greets : Greets t.log
  ids : t.ids.Pairwise (· < ·)
  bound : ∀ n ∈ t.ids, n < t.client.nextId
  ready : t.client.state = .ready → ch = .greeted ∧ t.Succeeded
  leaving : ch = .leaving ∨ ch = .left → t.Succeeded
  asked : ∀ method ps p, .request method ps p ∈ t.calls → .issue (.request method ps) ∈ moves
  alone : ∀ (i j : Nat) (a b : Call), t.calls[i]? = some a → t.calls[j]? = some b →
    a.isOver = false → b.isOver = false → i = j
  demand : ∀ call ∈ t.calls, t.Demand ch call

theorem demand_of_isOver {call : Call} (h : call.isOver = true) (t t' : Talk) (ch ch' : Chapter)
    (hd : t.Demand ch call) : t'.Demand ch' call := by
  cases call with
  | spawn _ _ _ => exact hd
  | waitReady p => cases p <;> trivial
  | request _ _ p => cases p <;> trivial
  | stop p => cases p <;> trivial
  | dropped => trivial

section
variable {params : Json} {moves : List Move} {ch ch' : Chapter} {t t' : Talk} {m : Move} {i : Nat}
  {call call' : Call} {e : Effect}

/-! ## Calls beside the one that goes on -/

theorem getElem?_turn_ne {j : Nat} (h : j ≠ i) : (t.turn i call e).calls[j]? = t.calls[j]? :=
  List.getElem?_set_ne (Ne.symm h)

theorem getElem?_turn_self (hi : t.calls[i]? = some call) :
    (t.turn i call' e).calls[i]? = some call' := by
  obtain ⟨hlt, -⟩ := List.getElem?_eq_some_iff.mp hi
  exact List.getElem?_set_self hlt

theorem mem_turn_of_isOver {other : Call} (hm : other ∈ t.calls) (ho : other.isOver = true)
    (hi : t.calls[i]? = some call) (hc : call.isOver = false) : other ∈ (t.turn i call' e).calls := by
  obtain ⟨j, hj⟩ := List.mem_iff_getElem?.mp hm
  have hne : j ≠ i := by
    rintro rfl
    obtain rfl := Option.some.inj (hi.symm.trans hj)
    cases ho.symm.trans hc
  exact List.mem_iff_getElem?.mpr ⟨j, (getElem?_turn_ne hne).trans hj⟩

theorem Succeeded.turn (h : t.Succeeded) (hi : t.calls[i]? = some call) (hc : call.isOver = false) :
    (t.turn i call' e).Succeeded :=
  mem_turn_of_isOver h rfl hi hc

theorem isSpawned_iff (t : Talk) :
    t.isSpawned = true ↔ ∃ command params, t.calls[0]? = some (.spawn command params (.ended (.ok ()))) := by
  unfold isSpawned
  split
  · next h => simp [h]
  · next hno =>
    refine ⟨nofun, fun ⟨command, params, h⟩ => ?_⟩
    cases hc : t.calls with
    | nil => simp [hc] at h
    | cons first rest =>
      rw [hc] at h
      obtain rfl := Option.some.inj h
      exact (hno _ _ _ hc).elim

theorem isSpawned_turn (h : t.isSpawned = true) (hi : t.calls[i]? = some call)
    (hc : call.isOver = false) : (t.turn i call' e).isSpawned = true := by
  obtain ⟨command, params, h⟩ := (isSpawned_iff t).mp h
  refine (isSpawned_iff _).mpr ⟨command, params, (getElem?_turn_ne ?_).trans h⟩
  rintro rfl
  obtain rfl := Option.some.inj (h.symm.trans hi)
  cases hc

theorem isRequest_of_turns {result? : Nat → Option (Except Fault Json)} {c : Client} {method : String}
    {ps : Option Json} {p : Requesting} (h : Call.Turns result? c call (.request method ps p) e) :
    ∃ p', call = .request method ps p' := by
  cases h with
  | request _ => exact ⟨_, rfl⟩

theorem ids_turn (t : Talk) (i : Nat) (call : Call) (e : Effect) :
    (t.turn i call e).ids = t.ids ++ (e.2.bind Utterance.id?).toList := by
  rw [Talk.ids, said_turn, List.filterMap_append]
  cases e.2 with
  | none => simp [Talk.ids]
  | some u => cases hu : u.id? <;> simp [Talk.ids, hu]

/-! ## Steps of a polite talk -/

theorem Polite.turn (h : Polite params moves ch t) (hi : t.calls[i]? = some call)
    (ht : Call.Turns (resultIn? t.log) t.client call call' e)
    (hspoken : Spoken params moves (t.said ++ e.2.toList) ch')
    (hsignal : ∀ n, e.1.signal = some n → n = 0 ∧ ch' = .opened)
    (hgreet : e.2 = some greeting → t.Welcomed)
    (hid : ∀ n, e.2.bind Utterance.id? = some n → n < e.1.nextId ∧ ∀ m ∈ t.ids, m < n)
    (hnext : t.client.nextId ≤ e.1.nextId)
    (hready : e.1.state = .ready → ch' = .greeted ∧ (t.turn i call' e).Succeeded)
    (hleaving : ch' = .leaving ∨ ch' = .left → t.Succeeded)
    (hdemand : (t.turn i call' e).Demand ch' call') : Polite params moves ch' (t.turn i call' e) := by
  have hover := ht.isOver
  have hothers : ∀ other ∈ (t.turn i call' e).calls, other = call' ∨
      other ∈ t.calls ∧ other.isOver = true := by
    intro other hm
    obtain ⟨j, hj⟩ := List.mem_iff_getElem?.mp hm
    by_cases hji : j = i
    · subst hji
      exact .inl (Option.some.inj (hj.symm.trans (getElem?_turn_self hi)))
    · rw [getElem?_turn_ne hji] at hj
      refine .inr ⟨List.mem_of_getElem? hj, ?_⟩
      cases ho : other.isOver with
      | true => rfl
      | false => exact (hji (h.alone j i other call hj hi ho hover)).elim
  refine ⟨isSpawned_turn h.spawned hi hover, by rwa [said_turn], hsignal, ?_, ?_, ?_, hready,
    fun hch => (hleaving hch).turn hi hover, ?_, ?_, ?_⟩
  · unfold Talk.turn
    cases he : e.2 with
    | none => simpa [he] using h.greets
    | some u =>
      refine h.greets.snoc fun hu => hgreet ?_
      cases hu
      exact he
  · rw [ids_turn]
    cases hu : e.2.bind Utterance.id? with
    | none => simpa using h.ids
    | some n =>
      refine List.pairwise_append.mpr ⟨h.ids, List.pairwise_singleton .., fun m hm k hk => ?_⟩
      obtain rfl := List.mem_singleton.mp hk
      exact (hid _ hu).2 m hm
  · intro n hn
    rw [ids_turn] at hn
    rcases List.mem_append.mp hn with hn | hn
    · exact Nat.lt_of_lt_of_le (h.bound n hn) hnext
    · exact (hid n (Option.mem_toList.mp hn)).1
  · intro method ps p hm
    rcases hothers _ hm with rfl | ⟨hm, -⟩
    · obtain ⟨p', rfl⟩ := isRequest_of_turns ht
      exact h.asked method ps p' (List.mem_of_getElem? hi)
    · exact h.asked method ps p hm
  · have hself : ∀ (j : Nat) (a : Call), (t.turn i call' e).calls[j]? = some a → a.isOver = false →
        j = i := by
      intro j a hj ha
      by_cases hji : j = i
      · exact hji
      · rw [getElem?_turn_ne hji] at hj
        exact h.alone j i a call hj hi ha hover
    intro j k a b hj hk ha hb
    exact (hself j a hj ha).trans (hself k b hk hb).symm
  · intro other hm
    rcases hothers other hm with rfl | ⟨hm, ho⟩
    · exact hdemand
    · exact demand_of_isOver ho t _ ch ch' (h.demand other hm)

/-- A step in which nothing is said. -/
theorem Polite.quietly {c' : Client} (h : Polite params moves ch t) (hi : t.calls[i]? = some call)
    (ht : Call.Turns (resultIn? t.log) t.client call call' (c', none))
    (hsignal : c'.signal = t.client.signal ∨ c'.signal = none)
    (hstate : c'.state = .ready → t.client.state = .ready) (hnext : t.client.nextId ≤ c'.nextId)
    (hdemand : (t.turn i call' (c', none)).Demand ch call') :
    Polite params moves ch (t.turn i call' (c', none)) := by
  refine h.turn hi ht ?_ (fun n hn => ?_) nofun nofun hnext (fun hr => ?_) h.leaving hdemand
  · simpa using h.spoken
  · rcases hsignal with hs | hs
    · exact h.signal n (hs ▸ hn)
    · cases hs.symm.trans hn
  · obtain ⟨hch, hsucc⟩ := h.ready (hstate hr)
    exact ⟨hch, hsucc.turn hi ht.isOver⟩

theorem Orders.goes {s s' : Sending} {c' : Client} (h : t.Orders s) (hb : ∀ n ∈ t.ids, n < t.client.nextId)
    (hg : s.Goes t.client s' c') (i : Nat) (call' : Call) :
    (t.turn i call' (c', none)).Orders s' ∧ t.client.nextId ≤ c'.nextId := by
  obtain ⟨n, hs', hnum⟩ := hg.numbered
  have hids : (t.turn i call' (c', none)).ids = t.ids := by simp [ids_turn]
  rcases hnum with ⟨hs, hnext⟩ | ⟨hs, hcount, hnext⟩
  · refine ⟨fun k hk => ?_, Nat.le_of_eq hnext.symm⟩
    obtain rfl := Option.some.inj (hs'.symm.trans hk)
    rw [hids]
    exact ⟨hnext ▸ (h _ hs).1, (h _ hs).2⟩
  · refine ⟨fun k hk => ?_, by omega⟩
    obtain rfl := Option.some.inj (hs'.symm.trans hk)
    rw [hids]
    exact ⟨hnext ▸ Nat.lt_succ_self _, fun m hm => hcount ▸ hb m hm⟩

theorem Polite.waits {p p' : Readying} (h : Polite params moves ch t)
    (hi : t.calls[i]? = some (.waitReady p)) (ht : Readying.Turns (resultIn? t.log) t.client p p' e) :
    ∃ ch', Polite params moves ch' (t.turn i (.waitReady p') e) := by
  have hd := h.demand _ (List.mem_of_getElem? hi)
  have hturn := Call.Turns.waitReady ht
  cases ht with
  | signal n hs =>
    obtain ⟨rfl, hch⟩ := h.signal n hs
    exact ⟨ch, h.quietly hi hturn (.inr rfl) id (Nat.le_refl _) ⟨rfl, hch, rfl⟩⟩
  | answered n answer hr =>
    obtain ⟨rfl, hch, hs⟩ := hd
    obtain ⟨answer', ha⟩ := welcomed_of_resultIn? hr
    exact ⟨ch, h.quietly hi hturn (.inl rfl) id (Nat.le_refl _)
      ⟨hch, hs, answer', (t.prefix_turn i _ _).subset ha⟩⟩
  | greet =>
    obtain ⟨rfl, hs, hw⟩ := hd
    refine ⟨.greeted, h.turn hi hturn h.spoken.greet (fun n hn => ?_) (fun _ => hw) nofun (Nat.le_refl _)
      (fun hr => ?_) nofun rfl⟩
    · cases hs.symm.trans hn
    · cases (h.ready hr).1
  | enter hstate =>
    have hch : ch = .greeted := hd
    subst hch
    refine ⟨.greeted, h.turn hi hturn (by simpa using h.spoken) h.signal nofun nofun (Nat.le_refl _)
      (fun _ => ⟨rfl, ?_⟩) h.leaving trivial⟩
    exact List.mem_of_getElem? (getElem?_turn_self hi)
  | ready _ | noSignal _ | refused _ _ | stuck _ | leftEarly _ =>
    exact ⟨ch, h.quietly hi hturn (.inl rfl) id (Nat.le_refl _) trivial⟩

theorem Polite.requests {method : String} {ps : Option Json} {p p' : Requesting}
    (h : Polite params moves ch t) (hi : t.calls[i]? = some (.request method ps p))
    (ht : Requesting.Turns t.client method ps p p' e) :
    ∃ ch', Polite params moves ch' (t.turn i (.request method ps p') e) := by
  have hmem := List.mem_of_getElem? hi
  have hd := h.demand _ hmem
  have hturn : Call.Turns (resultIn? t.log) t.client _ _ e := .request ht
  cases ht with
  | admitted hr =>
    exact ⟨ch, h.quietly hi hturn (.inl rfl) id (Nat.le_refl _) ⟨(h.ready hr).1, nofun⟩⟩
  | goes hg =>
    obtain ⟨hch, ho⟩ := hd
    obtain ⟨hstate, hsignal, -⟩ := hg.rest
    obtain ⟨ho', hnext⟩ := ho.goes h.bound hg i _
    exact ⟨ch, h.quietly hi hturn (.inl hsignal) (fun hr => hstate.symm.trans hr) hnext ⟨hch, ho'⟩⟩
  | sent he =>
    obtain ⟨rfl, ho⟩ := hd
    cases he with
    | posted n hc =>
      refine ⟨.greeted, h.turn hi hturn (h.spoken.ask n (h.asked method ps _ hmem)) h.signal nofun
        (fun k hk => ?_) (Nat.le_refl _) (fun hr => ?_) nofun trivial⟩
      · obtain rfl := Option.some.inj hk
        exact ho _ rfl
      · exact ⟨rfl, (h.ready hr).2.turn hi hturn.isOver⟩
    | withdrawn n f => exact ⟨_, h.quietly hi hturn (.inl rfl) id (Nat.le_refl _) trivial⟩
  | refused _ | answered _ _ => exact ⟨ch, h.quietly hi hturn (.inl rfl) id (Nat.le_refl _) trivial⟩

theorem Polite.stops {p p' : Stopping} (h : Polite params moves ch t)
    (hi : t.calls[i]? = some (.stop p)) (ht : Stopping.Turns t.client p p' e) :
    ∃ ch', Polite params moves ch' (t.turn i (.stop p') e) := by
  have hd := h.demand _ (List.mem_of_getElem? hi)
  have hturn : Call.Turns (resultIn? t.log) t.client _ _ e := .stop ht
  have hover := hturn.isOver
  cases ht with
  | leave hr =>
    obtain ⟨hch, hsucc⟩ := h.ready hr
    exact ⟨ch, h.quietly hi hturn (.inl rfl) nofun (Nat.le_refl _)
      ⟨hch, nofun, rfl, hsucc.turn hi hover, nofun⟩⟩
  | abort _ => exact ⟨ch, h.quietly hi hturn (.inl rfl) nofun (Nat.le_refl _) trivial⟩
  | goes hg =>
    obtain ⟨hch, ho, hstop, hsucc, -⟩ := hd
    obtain ⟨hstate, hsignal, hchannel⟩ := hg.rest
    obtain ⟨ho', hnext⟩ := ho.goes h.bound hg i _
    refine ⟨ch, h.quietly hi hturn (.inl hsignal) (fun hr => hstate.symm.trans hr) hnext
      ⟨hch, ho', ?_, hsucc.turn hi hover, fun n f hw => ?_⟩⟩
    · exact (congrArg ServerState.isStopping hstate).trans hstop
    · -- A server that is being stopped cannot crash, so only the channel can be at fault.
      subst hw
      cases hg with
      | crashed _ hc =>
        rw [hc] at hstop
        cases hstop
      | stuck _ _ hc => exact hc
  | sent he =>
    obtain ⟨rfl, ho, hstop, hsucc, hw⟩ := hd
    have hnot : t.client.state ≠ .ready := by
      intro hr
      rw [hr] at hstop
      cases hstop
    cases he with
    | posted n hc =>
      refine ⟨.leaving, h.turn hi hturn (h.spoken.shutdown n) (fun k hk => ?_) nofun (fun k hk => ?_)
        (Nat.le_refl _) (fun hr => (hnot hr).elim) (fun _ => hsucc) rfl⟩
      · cases (h.signal k hk).2
      · obtain rfl := Option.some.inj hk
        exact ho _ rfl
    | withdrawn n f =>
      exact ⟨_, h.quietly hi hturn (.inl rfl) id (Nat.le_refl _) (.inr ⟨rfl, hw n f rfl⟩)⟩
  | awaited n => exact ⟨ch, h.quietly hi hturn (.inl rfl) id (Nat.le_refl _) (.inl hd)⟩
  | told hc =>
    obtain rfl : ch = .leaving := hd.resolve_right fun hno => hno.2 hc
    refine ⟨.left, h.turn hi hturn h.spoken.goodbye (fun n hn => ?_)
      (fun hu => (goodbye_ne_greeting (Option.some.inj hu)).elim)
      (fun n hn => by cases hn) (Nat.le_refl _)
      (fun hr => ?_) (fun _ => h.leaving (.inl rfl)) trivial⟩
    · cases (h.signal n hn).2
    · cases (h.ready hr).1
  | atWork _ | stuck | close | killed _ =>
    exact ⟨ch, h.quietly hi hturn (.inl rfl) id (Nat.le_refl _) trivial⟩
  | finish _ =>
    exact ⟨ch, h.quietly hi hturn (.inl rfl) (fun hr => by cases hr) (Nat.le_refl _) trivial⟩

theorem Polite.goes (h : Polite params moves ch t) (hi : t.calls[i]? = some call)
    (ht : Call.Turns (resultIn? t.log) t.client call call' e) :
    ∃ ch', Polite params moves ch' (t.turn i call' e) := by
  cases ht with
  | drop hc =>
    exact ⟨ch, h.quietly hi (.drop hc) (.inl rfl) id (Nat.le_refl _) trivial⟩
  | @spawn _ _ p _ _ ht =>
    obtain rfl : p = .ended (.ok ()) := h.demand _ (List.mem_of_getElem? hi)
    cases ht
  | waitReady ht => exact h.waits hi ht
  | request ht => exact h.requests hi ht
  | stop ht => exact h.stops hi ht

theorem Polite.absorb (h : Polite params moves ch t) {r : Client × List Deed}
    (hr : t.client.Stirs r.1) : Polite params moves ch (t.absorb r) := by
  have hids : (t.absorb r).ids = t.ids := congrArg (List.filterMap _) (said_absorb t r)
  have hnext : (t.absorb r).client.nextId = t.client.nextId := hr.nextId
  have hready : (t.absorb r).client.state = .ready → t.client.state = .ready := by
    intro hs
    rcases hr.state with heq | ⟨-, hc⟩
    · exact heq.symm.trans hs
    · cases hc.symm.trans hs
  have horders : ∀ s, t.Orders s → (t.absorb r).Orders s := fun s ho n hn => by
    rw [hids, hnext]
    exact ho n hn
  have hstop : t.client.state.isStopping = true → (t.absorb r).client.state.isStopping = true := by
    intro hs
    rcases hr.state with heq | ⟨hno, -⟩
    · exact (congrArg ServerState.isStopping heq).trans hs
    · cases hno.symm.trans hs
  refine ⟨h.spawned, by rw [said_absorb]; exact h.spoken, fun n hn => h.signal n (hr.signal ▸ hn),
    h.greets.dids r.2, by rw [hids]; exact h.ids, fun n hn => ?_, fun hs => h.ready (hready hs),
    h.leaving, h.asked, h.alone, fun call hc => ?_⟩
  · rw [hnext]
    rw [hids] at hn
    exact h.bound n hn
  · have hd := h.demand call hc
    cases call with
    | spawn _ _ _ => exact hd
    | waitReady p =>
      cases p with
      | await n => exact ⟨hd.1, hd.2.1, hr.signal.trans hd.2.2⟩
      | greet =>
        obtain ⟨hch, hs, answer, ha⟩ := hd
        exact ⟨hch, hr.signal.trans hs, answer, (t.prefix_absorb r).subset ha⟩
      | enter => exact hd
      | _ => trivial
    | request _ _ p =>
      cases p with
      | sending s => exact ⟨hd.1, horders s hd.2⟩
      | _ => trivial
    | stop p =>
      cases p with
      | sending s =>
        obtain ⟨hch, ho, hs, hsucc, hw⟩ := hd
        exact ⟨hch, horders s ho, hstop hs, hsucc, fun n f he => hr.channel (hw n f he)⟩
      | await n => exact hd
      | farewell => exact hd.imp_right fun ⟨hch, hc⟩ => ⟨hch, hr.channel hc⟩
      | _ => trivial
    | dropped => trivial

theorem Polite.issue (h : Polite params moves ch t) (hq : t.isQuiet = true) (task : Task) :
    Polite params (moves ++ [.issue task]) ch { t with calls := t.calls ++ [task.call] } := by
  have hover : ∀ call ∈ t.calls, call.isOver = true := List.all_eq_true.mp hq
  have hlast : ∀ (j : Nat) (a : Call), (t.calls ++ [task.call])[j]? = some a → a.isOver = false →
      j = t.calls.length := by
    intro j a hj ha
    rcases Nat.lt_trichotomy j t.calls.length with hlt | heq | hgt
    · rw [List.getElem?_append_left hlt] at hj
      cases (hover a (List.mem_of_getElem? hj)).symm.trans ha
    · exact heq
    · rw [List.getElem?_eq_none (by simp; omega)] at hj
      cases hj
  refine ⟨?_, h.spoken.mono _, h.signal, h.greets, h.ids, h.bound, fun hs => ?_, fun hch => ?_, ?_,
    fun i j a b hi hj ha hb => (hlast i a hi ha).trans (hlast j b hj hb).symm, fun call hc => ?_⟩
  · obtain ⟨command, params, hfirst⟩ := (isSpawned_iff t).mp h.spawned
    obtain ⟨hlt, -⟩ := List.getElem?_eq_some_iff.mp hfirst
    exact (isSpawned_iff _).mpr ⟨command, params, (List.getElem?_append_left hlt).trans hfirst⟩
  · exact ⟨(h.ready hs).1, List.mem_append_left _ (h.ready hs).2⟩
  · exact List.mem_append_left _ (h.leaving hch)
  · intro method ps p hm
    rcases List.mem_append.mp hm with hm | hm
    · exact List.mem_append_left _ (h.asked method ps p hm)
    · have hcall := (List.mem_singleton.mp hm).symm
      cases task <;> cases hcall
      exact List.mem_append_right _ (List.mem_singleton.mpr rfl)
  · rcases List.mem_append.mp hc with hc | hc
    · exact demand_of_isOver (hover call hc) t _ ch ch (h.demand call hc)
    · obtain rfl := List.mem_singleton.mp hc
      cases task <;> trivial

theorem Polite.later (h : Polite params moves ch t) (m : Move) : Polite params (moves ++ [m]) ch t :=
  { h with
    spoken := h.spoken.mono m
    asked := fun method ps p hm => List.mem_append_left _ (h.asked method ps p hm) }

theorem Polite.step (h : Polite params moves ch t) (hm : oneByOne t m = true) (hs : t.step m = some t') :
    ∃ ch', Polite params (moves ++ [m]) ch' t' := by
  obtain ⟨task, rfl, -, rfl⟩ | ⟨i, call, call', e, hi, ht, rfl⟩ | ⟨r, hr, rfl⟩ := step_cases hs
  · exact ⟨ch, h.issue hm task⟩
  · obtain ⟨ch', h'⟩ := h.goes hi ht
    exact ⟨ch', h'.later m⟩
  · exact ⟨ch, (h.absorb hr).later m⟩

theorem Fresh.polite (h : Fresh params t) (moves : List Move) : Polite params moves .opened t := by
  obtain ⟨command, hcalls⟩ := h.calls
  have hids : t.ids = [0] := congrArg (List.filterMap _) h.said
  have hover : ∀ call ∈ t.calls, call = .spawn command params (.ended (.ok ())) := by
    rw [hcalls]
    exact fun call hc => List.mem_singleton.mp hc
  have hgreets : Greets t.log := by
    intro before hp
    have hsaid : greeting ∈ t.said := by
      refine (hp.filterMap Entry.utterance?).subset ?_
      rw [List.filterMap_append]
      exact List.mem_append_right _ (List.mem_singleton.mpr rfl)
    rw [h.said] at hsaid
    cases List.mem_singleton.mp hsaid
  refine ⟨?_, h.said, fun n hn => ⟨?_, rfl⟩, hgreets, by rw [hids]; simp, ?_, ?_,
    nofun, ?_, ?_, fun call hc => ?_⟩
  · exact (isSpawned_iff t).mpr ⟨command, params, by rw [hcalls]; rfl⟩
  · exact (Option.some.inj (h.signal.symm.trans hn)).symm
  · rw [hids]
    intro n hn
    obtain rfl := List.mem_singleton.mp hn
    exact h.nextId
  · intro hr
    rcases h.state with hs | hs <;> cases hs.symm.trans hr
  · intro method ps p hm
    cases hover _ hm
  · intro i j a b hi _ ha _
    rw [hover a (List.mem_of_getElem? hi)] at ha
    cases ha
  · rw [hover call hc]
    rfl

/-! ## What the client says, from first to last -/

/-- Nothing, or the shutdown request, which the goodbye may follow. -/
def IsFarewell (us : List Utterance) : Prop :=
  us = [] ∨ ∃ n, us = [.request n "shutdown" none] ∨ us = [.request n "shutdown" none, goodbye]

/-- What the client has said: the hello; the greeting, if the server has answered the hello; what users
have asked for; and, if anyone has waited for the server with success, the farewell. -/
structure Orderly (params : Json) (moves : List Move) (t : Talk) : Prop where
  form : t.said = [hello params] ∨
    ∃ asks bye, t.said = hello params :: greeting :: (asks ++ bye) ∧ (∀ u ∈ asks, IsAsked moves u) ∧
      IsFarewell bye ∧ (bye ≠ [] → .waitReady (.ended (.ok ())) ∈ t.calls)
  greets : ∀ before, before ++ [.said greeting] <+: t.log →
    ∃ answer, .did (.resolve 0 (.ok answer)) ∈ before
  ids : (t.said.filterMap Utterance.id?).Pairwise (· < ·)

theorem Polite.orderly (h : Polite params moves ch t) : Orderly params moves t := by
  refine ⟨?_, h.greets, h.ids⟩
  have hspoken := h.spoken
  cases ch with
  | opened => exact .inl hspoken
  | greeted =>
    obtain ⟨asks, ha, hsaid⟩ := hspoken
    exact .inr ⟨asks, [], by simpa using hsaid, ha, .inl rfl, fun hne => (hne rfl).elim⟩
  | leaving =>
    obtain ⟨asks, n, ha, hsaid⟩ := hspoken
    exact .inr ⟨asks, _, hsaid, ha, .inr ⟨n, .inl rfl⟩, fun _ => h.leaving (.inl rfl)⟩
  | left =>
    obtain ⟨asks, n, ha, hsaid⟩ := hspoken
    exact .inr ⟨asks, _, hsaid, ha, .inr ⟨n, .inr rfl⟩, fun _ => h.leaving (.inr rfl)⟩

end

/-- When calls are made one after another, then whatever the server sends and whenever it ends, the
client says what it has to say in order, and it numbers its requests upwards. -/
theorem said_in_order {id : ServerId} {command : String} {params : Json} {moves : List Move} {t : Talk}
    (h : Run oneByOne (start id command params) moves t) (hs : t.isSpawned = true) :
    Orderly params moves t := by
  have hpolite := h.opening_or (P := fun moves t => ∃ ch, Polite params moves ch t)
    (fun moves _ hf => ⟨.opened, hf.polite moves⟩)
    (fun _ _ _ _ ⟨_, hp⟩ hm hs => hp.step hm hs) (opening_start id command params)
  rcases hpolite with ho | ⟨ch, hp⟩
  · cases ho.not_spawned.symm.trans hs
  · exact hp.orderly

/-- A user asks for a shutdown, and then the server is stopped. -/
def movesWithShutdown : List Move :=
  movesUntilReady ++ [.issue (.request "shutdown" none)] ++ List.replicate 5 (.advance 2) ++
    [.expire 2, .issue .stop] ++ List.replicate 5 (.advance 3) ++ [.expire 3] ++
    List.replicate 2 (.advance 3) ++ [.killed 3 (.ok ()), .advance 3]

theorem said_in_order_asked_shutdown : ∃ t,
    Run oneByOne (start "ls-1" "server" .null) movesWithShutdown t ∧ t.isSpawned = true ∧
      Orderly .null movesWithShutdown t := by
  have h : ∃ t, play oneByOne movesWithShutdown (start "ls-1" "server" .null) = some t ∧
      t.isSpawned = true := ⟨_, rfl, rfl⟩
  obtain ⟨t, h, hs⟩ := h
  exact ⟨t, run_of_play h, hs, said_in_order (run_of_play h) hs⟩

/-- The shutdown request of a stop is one of two when a user has asked for the same. -/
theorem shutdown_said_twice : ∃ t,
    Run oneByOne (start "ls-1" "server" .null) movesWithShutdown t ∧ t.isSpawned = true ∧
      t.said.map Utterance.method = ["initialize", "initialized", "shutdown", "shutdown", "exit"] ∧
      ¬ (t.said.filter (·.method == "shutdown")).length ≤ 1 := by
  have h : ∃ t, play oneByOne movesWithShutdown (start "ls-1" "server" .null) = some t ∧
      t.isSpawned = true ∧
      t.said.map Utterance.method = ["initialize", "initialized", "shutdown", "shutdown", "exit"] ∧
      (t.said.filter (·.method == "shutdown")).length = 2 := ⟨_, rfl, rfl, rfl, rfl⟩
  obtain ⟨t, h, hs, hm, hn⟩ := h
  exact ⟨t, run_of_play h, hs, hm, by omega⟩

end Talk

end Supervisor.Lsp
