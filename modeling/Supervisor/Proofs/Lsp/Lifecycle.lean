import Supervisor.Proofs.Lsp.Turns
/-!
# The life of a server

The state of a server only moves forward, whatever its users do at the same time and whatever it sends
meanwhile. It is ready once at most, and not before it has answered and was greeted; after a stop has
begun it is neither ready nor crashed any more.
-/
namespace Supervisor.Lsp

/-! ## The order of the states -/

namespace ServerState

theorem rank_le_shutdown (s : ServerState) : s.rank ≤ shutdown.rank := by
  cases s <;> decide

theorem rank_le_of_not_stopping {s : ServerState} (h : s.isStopping = false) :
    s.rank ≤ crashed.rank := by
  cases s <;> first | decide | cases h

theorem isStopping_iff (s : ServerState) : s.isStopping = true ↔ shuttingDown.rank ≤ s.rank := by
  cases s <;> decide

theorem isRunning_iff (s : ServerState) : s.isRunning = true ↔ s.rank ≤ ready.rank := by
  cases s <;> decide

theorem eq_initializing {s : ServerState} (h : s.rank ≤ initializing.rank) : s = .initializing := by
  cases s <;> first | rfl | cases h

theorem eq_shutdown {s : ServerState} (h : shutdown.rank ≤ s.rank) : s = .shutdown := by
  cases s <;> revert h <;> decide

end ServerState

section
variable {result? : Nat → Option (Except Fault Json)} {c : Client}

theorem Client.Stirs.rank_le {c' : Client} (h : c.Stirs c') : c.state.rank ≤ c'.state.rank := by
  rcases h.state with hs | ⟨hs, hc⟩
  · exact Nat.le_of_eq (by rw [hs])
  · rw [hc]
    exact ServerState.rank_le_of_not_stopping hs

theorem Call.Turns.rank_le {call call' : Call} {e : Effect} (h : Call.Turns result? c call call' e) :
    c.state.rank ≤ e.1.state.rank := by
  cases h with
  | drop _ => exact Nat.le_refl _
  | spawn h =>
    cases h with
    | goes h => exact Nat.le_of_eq (by rw [h.rest.1])
    | sent h => exact Nat.le_of_eq (by rw [h.rest.1])
    | arm _ => exact Nat.le_refl _
  | waitReady h =>
    cases h with
    | enter h =>
      rw [h]
      exact Nat.zero_le _
    | _ => exact Nat.le_refl _
  | request h =>
    cases h with
    | goes h => exact Nat.le_of_eq (by rw [h.rest.1])
    | sent h => exact Nat.le_of_eq (by rw [h.rest.1])
    | _ => exact Nat.le_refl _
  | stop h =>
    cases h with
    | leave h =>
      rw [h]
      exact (by decide : ServerState.ready.rank ≤ ServerState.shuttingDown.rank)
    | abort h => exact Nat.le_succ_of_le (ServerState.rank_le_of_not_stopping h)
    | goes h => exact Nat.le_of_eq (by rw [h.rest.1])
    | sent h => exact Nat.le_of_eq (by rw [h.rest.1])
    | finish _ => exact ServerState.rank_le_shutdown _
    | _ => exact Nat.le_refl _

/-- Only who waits for the server makes it ready, at the last point. -/
theorem Call.Turns.enters {call call' : Call} {e : Effect} (h : Call.Turns result? c call call' e)
    (hn : c.state ≠ .ready) (hr : e.1.state = .ready) :
    call = .waitReady .enter ∧ c.state = .initializing := by
  cases h with
  | drop _ => exact (hn hr).elim
  | spawn h =>
    cases h with
    | goes h => exact (hn (h.rest.1 ▸ hr)).elim
    | sent h => exact (hn (h.rest.1 ▸ hr)).elim
    | arm _ => exact (hn hr).elim
  | waitReady h =>
    cases h with
    | enter h => exact ⟨rfl, h⟩
    | _ => exact (hn hr).elim
  | request h =>
    cases h with
    | goes h => exact (hn (h.rest.1 ▸ hr)).elim
    | sent h => exact (hn (h.rest.1 ▸ hr)).elim
    | _ => exact (hn hr).elim
  | stop h =>
    cases h with
    | goes h => exact (hn (h.rest.1 ▸ hr)).elim
    | sent h => exact (hn (h.rest.1 ▸ hr)).elim
    | leave _ | abort _ | finish _ => cases hr
    | _ => exact (hn hr).elim

end

namespace Talk
variable {params : Json} {t t' : Talk} {m : Move}

theorem step_rank (h : t.step m = some t') : t.client.state.rank ≤ t'.client.state.rank := by
  obtain ⟨_, -, -, rfl⟩ | ⟨i, call, call', e, -, ht, rfl⟩ | ⟨r, hr, rfl⟩ := step_cases h
  · exact Nat.le_refl _
  · exact ht.rank_le
  · exact hr.rank_le

theorem Run.rank_le {may : Talk → Move → Bool} {moves : List Move} (h : Run may t moves t') :
    t.client.state.rank ≤ t'.client.state.rank := by
  induction h with
  | nil => exact Nat.le_refl _
  | snoc _ _ hs ih => exact Nat.le_trans ih (step_rank hs)

/-! ## What has happened before -/

/-- The server has answered the initialize request, and not with an error. -/
def Welcomed (t : Talk) : Prop := ∃ answer, .did (.resolve 0 (.ok answer)) ∈ t.log

/-- What has happened when a call has come to its point. -/
def Fits (t : Talk) : Call → Prop
  | .spawn _ _ p => p = .ended (.ok ())
  | .waitReady (.await n) => n = 0
  | .waitReady .greet => t.Welcomed
  | .waitReady .enter => t.Welcomed ∧ greeting ∈ t.said
  | .stop .begin => True
  | .stop (.ended true _) => t.client.state = .shutdown
  | .stop _ => t.client.state.isStopping = true
  | _ => True

structure Sound (params : Json) (t : Talk) : Prop where
  first : ∃ rest, t.said = hello params :: rest
  signal : ∀ n, t.client.signal = some n → n = 0
  calls : ∀ call ∈ t.calls, t.Fits call

theorem Fits.mono {call : Call} (h : t.Fits call) (hr : t.client.state.rank ≤ t'.client.state.rank)
    (hl : t.log <+: t'.log) : t'.Fits call := by
  have hw : t.Welcomed → t'.Welcomed := fun ⟨answer, ha⟩ => ⟨answer, hl.subset ha⟩
  have hg : greeting ∈ t.said → greeting ∈ t'.said := fun h => (hl.filterMap Entry.utterance?).subset h
  have hstop : t.client.state.isStopping = true → t'.client.state.isStopping = true := fun hs =>
    (ServerState.isStopping_iff _).mpr (Nat.le_trans ((ServerState.isStopping_iff _).mp hs) hr)
  cases call with
  | waitReady p =>
    cases p with
    | await n => exact h
    | greet => exact hw h
    | enter => exact ⟨hw h.1, hg h.2⟩
    | _ => trivial
  | stop p =>
    cases p with
    | begin => trivial
    | ended atWork r =>
      cases atWork with
      | false => exact hstop h
      | true =>
        have hs : t.client.state = .shutdown := h
        exact ServerState.eq_shutdown (hs ▸ hr)
    | _ => exact hstop h
  | spawn _ _ _ => exact h
  | _ => trivial

theorem prefix_turn (t : Talk) (i : Nat) (call : Call) (e : Effect) : t.log <+: (t.turn i call e).log :=
  List.prefix_append _ _

theorem prefix_absorb (t : Talk) (r : Client × List Deed) : t.log <+: (t.absorb r).log :=
  List.prefix_append _ _

theorem welcomed_of_resultIn? {answer : Json} (h : resultIn? t.log 0 = some (.ok answer)) :
    t.Welcomed := by
  obtain ⟨entry, hm, he⟩ := List.exists_of_findSome?_eq_some h
  split at he
  · next n r =>
    split at he
    · next hn =>
      subst hn
      cases he
      exact ⟨answer, hm⟩
    · cases he
  · cases he

/-- A call that goes on comes to a point that fits, and the signal stays that of the initialize
request. -/
theorem Sound.goes {i : Nat} {call call' : Call} {e : Effect} (h : Sound params t) (hf : t.Fits call)
    (ht : Call.Turns (resultIn? t.log) t.client call call' e) :
    (∀ n, e.1.signal = some n → n = 0) ∧ (t.turn i call' e).Fits call' := by
  have hp := t.prefix_turn i call' e
  have hstay : t.Welcomed → (t.turn i call' e).Welcomed := fun ⟨answer, ha⟩ => ⟨answer, hp.subset ha⟩
  cases ht with
  | drop _ => exact ⟨h.signal, trivial⟩
  | @spawn _ _ p p' _ ht =>
    obtain rfl : p = .ended (.ok ()) := hf
    cases ht
  | waitReady ht =>
    cases ht with
    | signal n hs => exact ⟨nofun, h.signal n hs⟩
    | answered n answer hr =>
      obtain rfl : n = 0 := hf
      exact ⟨h.signal, hstay (welcomed_of_resultIn? hr)⟩
    | greet => exact ⟨h.signal, hstay hf, by simp⟩
    | enter _ => exact ⟨h.signal, trivial⟩
    | _ => exact ⟨h.signal, trivial⟩
  | request ht =>
    cases ht with
    | goes hg => exact ⟨fun n hs => h.signal n (hg.rest.2.1 ▸ hs), trivial⟩
    | sent he => exact ⟨fun n hs => h.signal n (he.rest.2.1 ▸ hs), trivial⟩
    | _ => exact ⟨h.signal, trivial⟩
  | stop ht =>
    cases ht with
    | atWork hs => exact ⟨h.signal, hs⟩
    | leave _ | abort _ => exact ⟨h.signal, rfl⟩
    | goes hg =>
      refine ⟨fun n hs => h.signal n (hg.rest.2.1 ▸ hs), ?_⟩
      exact (congrArg ServerState.isStopping hg.rest.1).trans hf
    | @sent _ r _ he =>
      refine ⟨fun n hs => h.signal n (he.rest.2.1 ▸ hs), ?_⟩
      have hstop := (congrArg ServerState.isStopping he.rest.1).trans hf
      cases r <;> exact hstop
    | awaited _ | told _ | stuck | close | killed _ => exact ⟨h.signal, hf⟩
    | finish _ => exact ⟨h.signal, rfl⟩

theorem Sound.step (h : Sound params t) (hs : t.step m = some t') : Sound params t' := by
  have hrank := step_rank hs
  obtain ⟨rest, hfirst⟩ := h.first
  obtain ⟨task, -, -, rfl⟩ | ⟨i, call, call', e, hi, ht, rfl⟩ | ⟨r, hr, rfl⟩ := step_cases hs
  · refine ⟨⟨rest, hfirst⟩, h.signal, fun call hc => ?_⟩
    rcases List.mem_append.mp hc with hc | hc
    · exact (h.calls call hc).mono hrank (List.prefix_refl _)
    · obtain rfl := List.mem_singleton.mp hc
      cases task <;> trivial
  · obtain ⟨hsignal, hfits⟩ := h.goes (i := i) (h.calls call (List.mem_of_getElem? hi)) ht
    refine ⟨⟨rest ++ e.2.toList, by simp [hfirst]⟩, hsignal, fun other hc => ?_⟩
    rcases List.mem_or_eq_of_mem_set hc with hc | rfl
    · exact (h.calls other hc).mono hrank (t.prefix_turn i call' e)
    · exact hfits
  · refine ⟨⟨rest, by simp [hfirst]⟩, fun n hn => h.signal n (hr.signal ▸ hn), fun call hc => ?_⟩
    exact (h.calls call hc).mono hrank (t.prefix_absorb r)

theorem Fresh.sound (h : Fresh params t) : Sound params t := by
  refine ⟨⟨[], h.said⟩, fun n hn => ?_, fun call hc => ?_⟩
  · rw [h.signal] at hn
    exact (Option.some.inj hn).symm
  · obtain ⟨command, hcalls⟩ := h.calls
    rw [hcalls] at hc
    obtain rfl := List.mem_singleton.mp hc
    rfl

theorem Run.sound {may : Talk → Move → Bool} {moves : List Move} (h₀ : Opening params t)
    (h : Run may t moves t') : Opening params t' ∨ Sound params t' :=
  h.opening_or (P := fun _ t => Sound params t) (fun _ _ hf => hf.sound)
    (fun _ _ _ _ hp _ hs => hp.step hs) h₀

/-! ## Forward only -/

/-- What is true of the state at a later moment, from what it was at an earlier one. -/
structure Forward (params : Json) (t t' : Talk) : Prop where
  rank : t.client.state.rank ≤ t'.client.state.rank
  down : t.client.isRunning = false → t'.client.isRunning = false
  stopping : ∀ p, .stop p ∈ t.calls → p ≠ .begin →
    t'.client.state ≠ .ready ∧ t'.client.state ≠ .crashed
  stopped : ∀ r, .stop (.ended true r) ∈ t.calls → t'.client.state = .shutdown
  /-- Before the server becomes ready it has been initializing all the time. -/
  ready : ∀ m u, t'.step m = some u → t'.client.state ≠ .ready → u.client.state = .ready →
    t.client.state = .initializing ∧ t'.Welcomed ∧ ∃ rest, t'.said = hello params :: rest ∧ greeting ∈ rest

theorem Opening.not_readied (h : Opening params t) (hs : t.step m = some t') :
    t'.client.state ≠ .ready := by
  intro hr
  rcases h.step hs with h | h
  · rcases h.state with hs | hs <;> cases hr.symm.trans hs
  · rcases h.state with hs | hs <;> cases hr.symm.trans hs

theorem Sound.readied (h : Sound params t) (hs : t.step m = some t') (hn : t.client.state ≠ .ready)
    (hr : t'.client.state = .ready) :
    t.client.state = .initializing ∧ t.Welcomed ∧
      ∃ rest, t.said = hello params :: rest ∧ greeting ∈ rest := by
  obtain ⟨_, -, -, rfl⟩ | ⟨i, call, call', e, hi, ht, rfl⟩ | ⟨r, hstir, rfl⟩ := step_cases hs
  · exact (hn hr).elim
  · obtain ⟨rfl, hstate⟩ := ht.enters hn hr
    obtain ⟨hw, hg⟩ := h.calls _ (List.mem_of_getElem? hi)
    obtain ⟨rest, hfirst⟩ := h.first
    rw [hfirst] at hg
    rcases List.mem_cons.mp hg with hg | hg
    · cases hg
    · exact ⟨hstate, hw, rest, hfirst, hg⟩
  · rcases hstir.state with hs | ⟨-, hs⟩
    · exact (hn (hs.symm.trans hr)).elim
    · cases hs.symm.trans hr

theorem Sound.stopping (h : Sound params t) {p : Stopping} (hp : .stop p ∈ t.calls)
    (hb : p ≠ .begin) : t.client.state.isStopping = true := by
  have hf := h.calls _ hp
  cases p with
  | begin => exact (hb rfl).elim
  | ended atWork r =>
    cases atWork with
    | false => exact hf
    | true =>
      have hs : t.client.state = .shutdown := hf
      rw [hs]
      rfl
  | _ => exact hf

theorem Opening.no_stop (h : Opening params t) (p : Stopping) : .stop p ∉ t.calls := by
  obtain ⟨call, hc, hat⟩ := h.point
  intro hp
  rw [hc] at hp
  obtain rfl := List.mem_singleton.mp hp
  cases hat

theorem Run.forward {may : Talk → Move → Bool} {moves moves' : List Move} {t₀ : Talk}
    (h₀ : Opening params t₀) (h : Run may t₀ moves t) (h' : Run may t moves' t') :
    Forward params t t' := by
  have hrank := h'.rank_le
  have hlater := (h.trans h').sound h₀
  refine ⟨hrank, fun hd => ?_, fun p hp hb => ?_, fun r hr => ?_, fun m u hs hn hu => ?_⟩
  · have hnot : ¬ t.client.state.rank ≤ ServerState.ready.rank := fun hle =>
      Bool.noConfusion (hd.symm.trans ((ServerState.isRunning_iff _).mpr hle))
    refine Bool.eq_false_iff.mpr fun hrun => hnot ?_
    exact Nat.le_trans hrank ((ServerState.isRunning_iff _).mp hrun)
  · rcases h.sound h₀ with ho | hsound
    · exact (ho.no_stop p hp).elim
    · have hstop := (ServerState.isStopping_iff _).mp (hsound.stopping hp hb)
      constructor <;> intro hs <;> rw [hs] at hrank <;>
        exact absurd (Nat.le_trans hstop hrank) (by decide)
  · rcases h.sound h₀ with ho | hsound
    · exact (ho.no_stop _ hr).elim
    · have hs : t.client.state = .shutdown := hsound.calls _ hr
      exact ServerState.eq_shutdown (hs ▸ hrank)
  · rcases hlater with ho | hsound
    · exact (ho.not_readied hs hu).elim
    · obtain ⟨hstate, hrest⟩ := hsound.readied hs hn hu
      rw [hstate] at hrank
      exact ⟨ServerState.eq_initializing hrank, hrest⟩

/-- A request that finds the server not ready is over at once, and nothing else happens. -/
theorem step_refused {i : Nat} {method : String} {ps : Option Json}
    (hi : t.calls[i]? = some (.request method ps .begin)) (hn : t.client.state ≠ .ready) :
    t.step (.advance i) = some { t with
      calls := t.calls.set i (.request method ps (.ended (.error t.client.notReadyFault))) } := by
  simp [Talk.step, hi, Call.step, Requesting.step, hn, turn]

/-- Whatever calls are made at the same time and in which order their steps come, whatever the server
sends and whenever it ends, its state only moves forward, and a request is refused while the server is
not ready. -/
theorem state_moves_forward {id : ServerId} {command : String} {moves moves' : List Move}
    (h : Run anyhow (start id command params) moves t) (h' : Run anyhow t moves' t') :
    Forward params t t' ∧
      ∀ i method ps, t.calls[i]? = some (.request method ps .begin) → t.client.state ≠ .ready →
        t.client.notReadyFault.code = "E_UNAVAILABLE" ∧
          t.step (.advance i) = some { t with
            calls := t.calls.set i (.request method ps (.ended (.error t.client.notReadyFault))) } :=
  ⟨h.forward (opening_start id command params) h', fun _ _ _ hi hn => ⟨rfl, step_refused hi hn⟩⟩

def answerToHello : List UInt8 :=
  Text.utf8 "Content-Length: 8\r\n\r\n\x7b\"id\":0\x7d".toList

def movesUntilReady : List Move :=
  List.replicate 5 (.advance 0) ++ [.issue .waitReady, .advance 1, .hear answerToHello] ++
    List.replicate 3 (.advance 1)

def movesUntilStopped : List Move :=
  [.issue .stop] ++ List.replicate 5 (.advance 2) ++ [.hangUp] ++ List.replicate 3 (.advance 2) ++
    [.killed 2 (.ok ()), .advance 2]

/-- A server that becomes ready and is stopped; it ends while it is asked to shut down. -/
theorem state_moves_forward_stopped : ∃ t t',
    Run anyhow (start "ls-1" "server" .null) movesUntilReady t ∧ Run anyhow t movesUntilStopped t' ∧
      t.client.state = .ready ∧ t'.client.state = .shutdown ∧ Forward .null t t' ∧
      ∀ i method ps, t.calls[i]? = some (.request method ps .begin) → t.client.state ≠ .ready →
        t.client.notReadyFault.code = "E_UNAVAILABLE" ∧
          t.step (.advance i) = some { t with
            calls := t.calls.set i (.request method ps (.ended (.error t.client.notReadyFault))) } := by
  have h : ∃ t t', play anyhow movesUntilReady (start "ls-1" "server" .null) = some t ∧
      play anyhow movesUntilStopped t = some t' ∧ t.client.state = .ready ∧ t'.client.state = .shutdown :=
    ⟨_, _, rfl, rfl, rfl, rfl⟩
  obtain ⟨t, t', h, h', hready, hshut⟩ := h
  exact ⟨t, t', run_of_play h, run_of_play h', hready, hshut,
    state_moves_forward (run_of_play h) (run_of_play h')⟩

end Talk

end Supervisor.Lsp
