import AiroAgent.FleetLoad
import AiroAgent.Inventory

/-!
# Which artefact a load is answered for

The idempotent branch of a load compares the id and the profile, the launch
branch stores the whole `ModelRef`. Two snapshots of one repository have one id,
so that a load of the newer one can be answered for the older.
-/

namespace AiroAgent.Fleet

/-! ## What a load asks for -/

structure SameArtefact (m n : ModelRef) : Prop where
  id : m.id = n.id
  revision : m.revision = n.revision
  path : m.path = n.path
  engine : m.engine = n.engine

/-- The slot of the port holds the artefact and the settings the load asks for, and the answer says so.
`==` takes numbers of one value for equal. -/
structure HoldsExactly (s : Sys) (c : LoadCall) (info : SlotInfo) : Prop where
  held : ∃ slot m, s.slots.lookup c.port = some slot ∧ slot.model = some m ∧ SameArtefact m c.model ∧
    (slot.profile = c.profile ∨ slot.profile.eq c.profile = true)
  revision : info.revision = c.model.revision

/-- The load that put into the slot what it holds. -/
def LoadedBy (h : History) (p : Port) (slot : Slot) (c : LoadCall) : Prop :=
  (∃ x ∈ h, x.2 = .load c) ∧ c.port = p ∧ slot.model = some c.model ∧ slot.profile = c.profile

/-- The load finds its id up with its profile, from an earlier load of another artefact. -/
def HitsOther (h : History) (s : Sys) (c : LoadCall) : Prop :=
  ∃ slot c₀, c.held = false ∧ s.slots.lookup c.port = some slot ∧ already_serving slot c.model c.profile = true ∧
    LoadedBy h c.port slot c₀ ∧ ¬ SameArtefact c₀.model c.model

section
variable {host : Host} {s s' : Sys} {c : LoadCall} {slot : Slot} {info : SlotInfo} {h : History} {p : Port}

theorem SameArtefact.refl (m : ModelRef) : SameArtefact m m := ⟨rfl, rfl, rfl, rfl⟩

theorem already_serving_iff {m : ModelRef} {prof : Profile} : already_serving slot m prof = true ↔
    slot.status = .up ∧ ∃ r, slot.model = some r ∧ r.id = m.id ∧ slot.profile.eq prof = true := by
  unfold already_serving
  cases slot.status with
  | up => cases slot.model <;> simp
  | _ => simp

/-! ## Who put it there -/

theorem LoadedBy.snoc {x : Sys × Input} (hL : LoadedBy h p slot c) : LoadedBy (h ++ [x]) p slot c := by
  obtain ⟨⟨y, hy, he⟩, hrest⟩ := hL
  exact ⟨⟨y, List.mem_append_left _ hy, he⟩, hrest⟩

theorem run_loaded (hr : Run host h s) : ∀ p slot m, s.slots.lookup p = some slot → slot.model = some m →
    ∃ c, LoadedBy h p slot c := by
  induction hr with
  | nil =>
    intro p slot m hl hm
    obtain rfl | ⟨pid, ref, hR⟩ := (inv_init host).slot p slot hl
    · cases hm
    · cases hR.launched
  | @snoc h s i s' hr hst ih =>
    intro p slot m hl hm
    have hkeep : s.slots.lookup p = some slot → ∃ c, LoadedBy (h ++ [(s, i)]) p slot c := by
      intro hl
      obtain ⟨c, hc⟩ := ih p slot m hl hm
      exact ⟨c, hc.snoc⟩
    cases step_trans hst with
    | @load_start c old pid ref early l hL hs hf =>
      obtain ⟨rfl, rfl⟩ | ⟨-, hl⟩ := lookup_insert_cases hl
      · exact ⟨c, ⟨(s, .load c), by simp, rfl⟩, rfl, rfl, rfl⟩
      · exact hkeep hl
    | load_fail | down =>
      obtain ⟨-, rfl⟩ | ⟨-, hl⟩ := lookup_insert_cases hl
      · cases hm
      · exact hkeep hl
    | @mark_up pid props now q old hk hf hs =>
      obtain ⟨rfl, rfl⟩ | ⟨-, hl⟩ := lookup_insert_cases hl
      · obtain ⟨hle, -⟩ := find_by_pid_some hf
        obtain ⟨c, hc⟩ := ih _ old m hle hm
        exact ⟨c, hc.snoc⟩
      · exact hkeep hl
    | _ => exact hkeep hl

/-! ## One load -/

theorem load_answer {pid : Pid} {ref : Ref} {early : Option Reason} (hL : Launches s c slot) (hs : c.start = .ok pid ref early) :
    (handle_call_load host c s).1 = .ok (slot_info host (started c pid ref)) := by
  rw [do_load_launches hL, start_engine_ok hs]

theorem launch_exact {pid : Pid} {ref : Ref} {early : Option Reason} (hL : Launches s c slot) (hs : c.start = .ok pid ref early) :
    HoldsExactly (handle_call_load host c s).2 c (slot_info host (started c pid ref)) := by
  refine ⟨⟨started c pid ref, c.model, ?_, rfl, SameArtefact.refl _, .inl rfl⟩, rfl⟩
  rw [load_started hL hs]
  exact AList.lookup_insert _

theorem load_exact_iff (hr : Run host h s) :
    (∀ info, (handle_call_load host c s).1 = .ok info → HoldsExactly (handle_call_load host c s).2 c info) ↔
      ¬ HitsOther h s c := by
  refine ⟨fun hexact hx => ?_, fun hn info hok => ?_⟩
  · obtain ⟨slot, c₀, hh, hl, ha, ⟨-, -, hm₀, -⟩, hother⟩ := hx
    have hc : handle_call_load host c s = _ := handle_call_load_serving hh hl ha
    obtain ⟨slot', m, hl', hm, hsame, -⟩ := (hexact (slot_info host slot) (by rw [hc])).held
    rw [hc] at hl'
    have hslot : slot = slot' := Option.some.inj (hl.symm.trans hl')
    subst hslot
    have hmodel : m = c₀.model := Option.some.inj (hm.symm.trans hm₀)
    exact hother (hmodel ▸ hsame)
  · obtain ⟨slot, hh, hl, ha, -⟩ | ⟨slot, pid, ref, early, hL, hs⟩ := handle_call_load_ok hok
    · rw [handle_call_load_serving hh hl ha] at hok ⊢
      cases hok
      obtain ⟨-, r, hm, -, hprofile⟩ := already_serving_iff.mp ha
      obtain ⟨c₀, hL⟩ := run_loaded hr c.port slot r hl hm
      have hm₀ : slot.model = some c₀.model := hL.2.2.1
      have hsame : SameArtefact c₀.model c.model := by
        by_cases hsame : SameArtefact c₀.model c.model
        · exact hsame
        · exact absurd ⟨slot, c₀, hh, hl, ha, hL, hsame⟩ hn
      refine ⟨⟨slot, c₀.model, hl, hm₀, hsame, .inr hprofile⟩, ?_⟩
      simp only [slot_info, hm₀, Option.bind_some]
      exact hsame.revision
    · rw [load_answer hL hs] at hok
      cases hok
      exact launch_exact hL hs

end

/-! ## Every load of a run -/

def LoadsExact (host : Host) (h : History) : Prop :=
  ∀ h₁ s₁ c h₂, h = h₁ ++ (s₁, .load c) :: h₂ → ∀ info, (handle_call_load host c s₁).1 = .ok info →
    HoldsExactly (handle_call_load host c s₁).2 c info

def LoadsMissOther (h : History) : Prop := ∀ h₁ s₁ c h₂, h = h₁ ++ (s₁, .load c) :: h₂ → ¬ HitsOther h₁ s₁ c

/-- One id is one artefact in the loads of a port: no snapshot takes the place of another under its id. -/
def StableIds (h : History) : Prop :=
  ∀ x ∈ h, ∀ y ∈ h, ∀ c d, x.2 = .load c → y.2 = .load d → c.port = d.port → c.model.id = d.model.id →
    SameArtefact c.model d.model

theorem loads_miss_other_of_stable {h : History} (hs : StableIds h) : LoadsMissOther h := by
  intro h₁ s₁ c h₂ he hx
  obtain ⟨slot, c₀, -, -, ha, ⟨⟨x, hx, hload⟩, hport, hm₀, -⟩, hother⟩ := hx
  obtain ⟨-, r, hm, hid, -⟩ := already_serving_iff.mp ha
  have hmodel : r = c₀.model := Option.some.inj (hm.symm.trans hm₀)
  subst hmodel
  refine hother (hs x ?_ (s₁, .load c) ?_ c₀ c hload rfl hport hid)
  · rw [he]
    exact List.mem_append_left _ hx
  · rw [he]
    exact List.mem_append_right _ (.head _)

/-- **Loads answered for what they ask for.** Every `{:ok, info}` of a run is for the very artefact, settings and
revision of its load, if and only if no load finds its id up with its profile from another artefact. -/
theorem loads_exact_iff {host : Host} {h : History} {s : Sys} (hr : Run host h s) : LoadsExact host h ↔ LoadsMissOther h := by
  refine forall_congr' fun h₁ => forall_congr' fun s₁ => forall_congr' fun c => forall_congr' fun h₂ => ?_
  refine forall_congr' fun he => ?_
  exact load_exact_iff (Machine.Run.split hr he).1

theorem loads_exact_iff_again : ∃ h s, Run one_slot h s ∧
    h.map Prod.snd = [load_ok model_a 0, .mark_up 0 {} 1, load_ok model_a 1] ∧ LoadsExact one_slot h := by
  have he : ∃ s, Machine.exec (step one_slot) (init one_slot) [load_ok model_a 0, .mark_up 0 {} 1, load_ok model_a 1] = some s :=
    ⟨_, rfl⟩
  obtain ⟨s, he⟩ := he
  refine ⟨_, s, .of_exec he, Machine.visits_inputs he, (loads_exact_iff (.of_exec he)).mpr (loads_miss_other_of_stable ?_)⟩
  have hmodel : ∀ x ∈ Machine.visits (step one_slot) (init one_slot) [load_ok model_a 0, .mark_up 0 {} 1, load_ok model_a 1],
      ∀ c, x.2 = .load c → c.model = model_a := by
    intro x hx c hc
    have hin := List.mem_map_of_mem (f := Prod.snd) hx
    rw [Machine.visits_inputs he, hc] at hin
    simp only [load_ok, List.mem_cons, List.not_mem_nil, or_false, Input.load.injEq, reduceCtorEq, false_or] at hin
    obtain rfl | rfl := hin <;> rfl
  intro x hx y hy c d hc hd _ _
  rw [hmodel x hx c hc, hmodel y hy d hd]
  exact SameArtefact.refl _

/-! ## A newer snapshot -/

def snapshot_dir (sha : String) : String := "/hub/models--org--m/snapshots/" ++ sha

def snapshot (sha : String) : ModelRef where
  id := "org/m"
  repo := some "org/m"
  revision := some sha
  size_bytes := some 0
  path := snapshot_dir sha
  capabilities := [.chat]
  engine := .vllm

/-- The inventory has both snapshots under one id. The load of r2 is answered as resident, with revision r1. -/
theorem newer_snapshot_not_loaded : ∃ h s c info, Run one_slot h s ∧
    Vllm.ref_from_dir one_slot (snapshot_dir "r1") = some (snapshot "r1") ∧
    Vllm.ref_from_dir one_slot (snapshot_dir "r2") = some (snapshot "r2") ∧ c.model = snapshot "r2" ∧
    h.map Prod.snd = [load_ok (snapshot "r1") 0, .mark_up 0 {} 1, .load c] ∧
    (handle_call_load one_slot c s).1 = .ok info ∧ info.revision = some "r1" ∧ ¬ LoadsExact one_slot h := by
  let c : LoadCall := { model := snapshot "r2", port := 8081, profile := ∅, start := .ok 1 1 none }
  have he : ∃ s, Machine.exec (step one_slot) (init one_slot) [load_ok (snapshot "r1") 0, .mark_up 0 {} 1] = some s ∧
      (∃ info, (handle_call_load one_slot c s).1 = .ok info ∧ info.revision = some "r1") ∧
      step one_slot s (.load c) = some s := ⟨_, rfl, ⟨_, rfl, rfl⟩, rfl⟩
  obtain ⟨s, he, ⟨info, hok, hrevision⟩, hst⟩ := he
  refine ⟨_, s, c, info, (Machine.Run.of_exec he).snoc hst, rfl, rfl, rfl, rfl, hok, hrevision, fun hexact => ?_⟩
  have hr2 : info.revision = some "r2" := (hexact _ s c [] rfl info hok).revision
  rw [hrevision] at hr2
  exact absurd hr2 (by decide)

end AiroAgent.Fleet
