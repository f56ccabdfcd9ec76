import Supervisor.Proofs.Holotree.Listing
import Supervisor.Proofs.Holotree.RecordedCalls
/-!
# Clearing caches

Clearing deletes exactly the environments that the listing puts under the prefix, in ascending order
and whatever becomes of each, and it deletes nothing if there is no listing. `Clears` says what is done
to the machine, call by call.
-/
namespace Supervisor.Holotree

section
variable {σ : Type}

/-- Where the tool is: where the settings say, if it is there, or else where it is found. -/
inductive Locates (w : Workshop σ) (s : EnvironmentSettings) (st : σ) : Except Fault Path → Prop
  | given {p : Path} (hp : s.rccPath = some p) (he : w.exists? st p = true) : Locates w s st (.ok p)
  | gone {p : Path} (hp : s.rccPath = some p) (he : w.exists? st p = false) :
    Locates w s st (.error (.notFound ("rcc executable not found at " ++ p.text)))
  | found {p : Path} (hp : s.rccPath = none) (hf : w.find? st "rcc" = some p) : Locates w s st (.ok p)
  | unknown (hp : s.rccPath = none) (hf : w.find? st "rcc" = none) :
    Locates w s st (.error (.notFound "rcc executable not found in PATH"))

/-- How a clearing ends, and what it does to the machine. -/
inductive Clears (w : Workshop σ) (s : EnvironmentSettings) (st : σ) :
    Except Fault Unit → List Deed → Prop
  | unlocated {f : Fault} (hp : Locates w s st (.error f)) : Clears w s st (.error f) []
  | unlisted {p : Path} {i : Invocation} {f : Fault} (hp : Locates w s st (.ok p))
      (hi : Calls s p ["holotree", "list", "--json"] i) (hr : (w.run i st).1 = .error f) :
      Clears w s st (.error f) [.ran i (.error f)]
  | unread {p : Path} {i : Invocation} {output : ToolOutput} {e : Json.ReadError}
      (hp : Locates w s st (.ok p)) (hi : Calls s p ["holotree", "list", "--json"] i)
      (hr : (w.run i st).1 = .ok output) (hl : listing output.stdout = .error e) :
      Clears w s st
        (.error (.externalTool "rcc" (some 0) ("unexpected holotree list output: " ++ e.message)))
        [.ran i (.ok output)]
  | done {p : Path} {i : Invocation} {output : ToolOutput} {entries : List (String × Option String)}
      {ids : List String} {deletions : List Deed} (hp : Locates w s st (.ok p))
      (hi : Calls s p ["holotree", "list", "--json"] i) (hr : (w.run i st).1 = .ok output)
      (hl : listing output.stdout = .ok entries) (ho : ids.Pairwise (· < ·))
      (hids : ∀ id, id ∈ ids ↔ Under (s.spacePrefix.getD s.space) entries id)
      (hd : List.Forall₂ (fun id d => ∃ i r, Calls s p ["holotree", "delete", id] i ∧ d = .ran i r)
        ids deletions) :
      Clears w s st (.ok ())
        (.ran i (.ok output) :: (deletions ++ (s.cacheDirectory.map Deed.removed).toList))

variable {w : Workshop σ} {s : EnvironmentSettings} {st : σ}

theorem exists_id_of_mem {R : String → Deed → Prop} {ids : List String} {deletions : List Deed}
    (h : List.Forall₂ R ids deletions) {d : Deed} (hd : d ∈ deletions) : ∃ id ∈ ids, R id d := by
  induction h with
  | nil => cases hd
  | cons hr _ ih =>
    rcases List.mem_cons.mp hd with rfl | hd
    · exact ⟨_, List.mem_cons_self, hr⟩
    · obtain ⟨id, hid, hr⟩ := ih hd
      exact ⟨id, List.mem_cons_of_mem _ hid, hr⟩

/-- A clearing asks for the listing and for deletions, and for nothing else. -/
theorem Clears.calls {result : Except Fault Unit} {deeds : List Deed} (h : Clears w s st result deeds)
    {i : Invocation} {r : Except Fault ToolOutput} (hm : .ran i r ∈ deeds) : ∃ p args, Calls s p args i ∧
      (args = ["holotree", "list", "--json"] ∨ ∃ id, args = ["holotree", "delete", id]) := by
  cases h with
  | unlocated hp => cases hm
  | unlisted hp hi hr | unread hp hi hr hl =>
    cases List.mem_singleton.mp hm
    exact ⟨_, _, hi, .inl rfl⟩
  | done hp hi hr hl ho hids hd =>
    rcases List.mem_cons.mp hm with he | hm
    · cases he
      exact ⟨_, _, hi, .inl rfl⟩
    rcases List.mem_append.mp hm with hm | hm
    · obtain ⟨id, -, i', r', hi', he⟩ := exists_id_of_mem hd hm
      cases he
      exact ⟨_, _, hi', .inr ⟨id, rfl⟩⟩
    · cases hdir : s.cacheDirectory <;> simp [hdir] at hm

variable (w s st)

theorem locates_locate : Locates w s st (locate w s st) := by
  unfold locate
  cases hp : s.rccPath with
  | some p =>
    cases he : w.exists? st p with
    | true => simpa [he] using Locates.given hp he
    | false => simpa [he] using Locates.gone hp he
  | none =>
    cases hf : w.find? st "rcc" with
    | some p => simpa [tool, hf] using Locates.found hp hf
    | none => simpa [tool, hf] using Locates.unknown hp hf

variable {w s st} in
theorem clear_of_listing {p : Path} {output : ToolOutput} {ids : List String} {st' : σ}
    (hp : locate w s st = .ok p) (hr : w.run (listCall p s) st = (.ok output, st'))
    (hl : readListing s.collectPrefix output.stdout = .ok ids) :
    clear w s st = (.ok (), removeCache w s (deleteAll w p s ids st')) := by
  simp only [clear, hp, hr, hl]

theorem clear_recording (log : List Deed) :
    ∃ deeds, clear w.recording s (st, log) = ((clear w s st).1, (clear w s st).2, log ++ deeds) ∧
      Clears w s st (clear w s st).1 deeds := by
  have hlocates := locates_locate w s st
  cases hp : locate w s st with
  | error f =>
    rw [hp] at hlocates
    exact ⟨[], by simp [clear, locate_recording, hp], by simpa [clear, hp] using .unlocated hlocates⟩
  | ok p =>
    rw [hp] at hlocates
    have hi := calls_call s p ["list", "--json"]
    cases hr : w.run (listCall p s) st with
    | mk r st' =>
      have hr' : w.recording.run (listCall p s) (st, log) =
          (r, st', log ++ [.ran (listCall p s) r]) := by simp [Workshop.recording, hr]
      cases r with
      | error f =>
        refine ⟨[.ran (listCall p s) (.error f)], ?_, ?_⟩
        · simp [clear, locate_recording, hp, hr, hr']
        · simpa [clear, hp, hr] using .unlisted hlocates hi (congrArg Prod.fst hr)
      | ok output =>
        rcases readListing_cases s.collectPrefix output.stdout with
          ⟨e, hl, hread⟩ | ⟨entries, ids, hl, hread, ho, hids⟩
        · refine ⟨[.ran (listCall p s) (.ok output)], ?_, ?_⟩
          · simp [clear, locate_recording, hp, hr, hr', hread]
          · simpa [clear, hp, hr, hread] using
              .unread hlocates hi (congrArg Prod.fst hr) hl
        · obtain ⟨deletions, hdelete, hall⟩ :=
            deleteAll_recording w p s ids st' (log ++ [.ran (listCall p s) (.ok output)])
          refine ⟨.ran (listCall p s) (.ok output) ::
            (deletions ++ (s.cacheDirectory.map Deed.removed).toList), ?_, ?_⟩
          · simp [clear, locate_recording, hp, hr, hr', hread, hdelete, removeCache_recording]
          · have hcalls : List.Forall₂ (fun id d => ∃ i r,
                Calls s p ["holotree", "delete", id] i ∧ d = .ran i r) ids deletions := by
              refine hall.imp fun id d hd => ?_
              obtain ⟨r, rfl⟩ := hd
              exact ⟨_, r, calls_call s p ["delete", id], rfl⟩
            simpa [clear, hp, hr, hread] using
              .done hlocates hi (congrArg Prod.fst hr) hl ho hids hcalls

/-- A clearing runs what `Clears` says, call by call, and every call is made for the controller and
with the variables of the settings. Writing it down changes nothing. -/
theorem clear_deletes_exactly :
    ∃ deeds, clear w.recording s (st, []) = ((clear w s st).1, (clear w s st).2, deeds) ∧
      Clears w s st (clear w s st).1 deeds ∧
      ∀ i r, .ran i r ∈ deeds → (∃ args, i.args = args ++ ["--controller", "warden"]) ∧
        ∀ name, i.env.find? name =
          if name = "ROBOCORP_HOME" then (s.robocorpHome.map Path.text).or (s.env.find? name)
          else s.env.find? name := by
  obtain ⟨deeds, hrun, hclears⟩ := clear_recording w s st []
  refine ⟨deeds, hrun, hclears, fun i r hm => ?_⟩
  obtain ⟨p, args, hi, -⟩ := hclears.calls hm
  exact ⟨⟨args, hi.args_eq⟩, hi.env_eq⟩

/-! A listing of environments in the space, in another one, and in none, two of them listed twice. -/

def mixedListing : String :=
  "\n\x7b\"e\":\x7b\"space\":\"ci\"\x7d,\"d\":\x7b\"space\":\"warden\"\x7d,\"a\":\x7b\"space\":\"warden\"\x7d," ++
    "\"c\":\x7b\x7d,\"a\":\x7b\"space\":\"ci\"\x7d,\"e\":\x7b\"size\":1,\"space\":\"warden-2\"\x7d\x7d\n"

theorem listing_mixed : listing mixedListing = .ok [("e", some "ci"), ("d", some "warden"),
    ("a", some "warden"), ("c", none), ("a", some "ci"), ("e", some "warden-2")] := by decide +kernel

theorem readListing_mixed : readListing "warden" mixedListing = .ok ["d", "e"] :=
  readListing_of_listing listing_mixed "warden"

/-- A workshop where rcc lists these environments and fails to delete one of them. -/
def mixedWorkshop : Workshop Unit where
  exists? _ _ := false
  find? _ command := if command = "rcc" then some ⟨"/usr/bin/rcc"⟩ else none
  run i st :=
    if i.args.contains "list" then (.ok ⟨mixedListing, ""⟩, st)
    else if i.args.contains "d" then (.error (.timeout "rcc timed out after 600s"), st)
    else (.ok ⟨"", ""⟩, st)
  removeDirectory _ st := st

/-- The environment that cannot be deleted does not keep the one after it. -/
theorem clear_deletes_exactly_mixed :
    let s : EnvironmentSettings :=
      { robocorpHome := some ⟨"/home/robot"⟩, cacheDirectory := some ⟨"/cache"⟩ }
    ∃ i₁ i₂ i₃, clear mixedWorkshop.recording s ((), []) = (.ok (), (),
        [.ran i₁ (.ok ⟨mixedListing, ""⟩), .ran i₂ (.error (.timeout "rcc timed out after 600s")),
          .ran i₃ (.ok ⟨"", ""⟩), .removed ⟨"/cache"⟩]) ∧
      i₁.args = ["holotree", "list", "--json", "--controller", "warden"] ∧
      i₂.args = ["holotree", "delete", "d", "--controller", "warden"] ∧
      i₃.args = ["holotree", "delete", "e", "--controller", "warden"] ∧
      ∀ i ∈ [i₁, i₂, i₃], i.env.find? "ROBOCORP_HOME" = some "/home/robot" := by
  intro s
  let rcc : Path := ⟨"/usr/bin/rcc"⟩
  have hrun : clear mixedWorkshop.recording s ((), []) = (.ok (), (),
      [.ran (listCall rcc s) (.ok ⟨mixedListing, ""⟩),
        .ran (deleteCall rcc s "d") (.error (.timeout "rcc timed out after 600s")),
        .ran (deleteCall rcc s "e") (.ok ⟨"", ""⟩), .removed ⟨"/cache"⟩]) := by
    have hlocate : locate mixedWorkshop.recording s ((), []) = .ok rcc := rfl
    have hlist : mixedWorkshop.recording.run (listCall rcc s) ((), []) =
        (.ok ⟨mixedListing, ""⟩, (), [.ran (listCall rcc s) (.ok ⟨mixedListing, ""⟩)]) := rfl
    have hids : readListing s.collectPrefix mixedListing = .ok ["d", "e"] := readListing_mixed
    exact clear_of_listing hlocate hlist hids
  obtain ⟨deeds, hdeeds, -, hcalls⟩ := clear_deletes_exactly mixedWorkshop s ()
  rw [hdeeds] at hrun
  have hmem : deeds = _ := congrArg (fun x => x.2.2) hrun
  refine ⟨_, _, _, hdeeds.trans hrun, rfl, rfl, rfl, fun i hi => ?_⟩
  have hran : ∃ r, Deed.ran i r ∈ deeds := by
    simp only [List.mem_cons, List.not_mem_nil, or_false] at hi
    rw [hmem]
    rcases hi with rfl | rfl | rfl
    · exact ⟨_, List.mem_cons_self⟩
    · exact ⟨_, List.mem_cons_of_mem _ List.mem_cons_self⟩
    · exact ⟨_, List.mem_cons_of_mem _ (List.mem_cons_of_mem _ List.mem_cons_self)⟩
  obtain ⟨r, hr⟩ := hran
  exact (hcalls i r hr).2 "ROBOCORP_HOME"

end

end Supervisor.Holotree
