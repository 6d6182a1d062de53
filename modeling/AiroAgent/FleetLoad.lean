import AiroAgent.FleetHistory

/-!
# What a load answers

A load is answered `{:ok, info}` on two branches. The launch branch leaves a
fresh engine in the slot. The idempotent branch trusts the slot's status, and
an unload leaves the slot looking `:up` until its `:DOWN` is handled: a load of
the same model and profile that gets in between is answered for the engine the
unload has terminated.
-/

namespace AiroAgent.Fleet

def Sys.engine (s : Sys) (p : Port) : Option Pid := (s.slots.lookup p).bind (·.pid)

def HoldsLive (s : Sys) (p : Port) : Prop := ∃ pid, s.engine p = some pid ∧ pid ∉ s.otp.terminated

/-- The load finds what it asks for in the slot, up and with its profile, and the
history has an accepted unload of that very engine. -/
def HitsUnloaded (h : History) (s : Sys) (c : LoadCall) : Prop :=
  ∃ slot pid, c.held = false ∧ s.slots.lookup c.port = some slot ∧
    already_serving slot c.model c.profile = true ∧ slot.pid = some pid ∧ Unloaded h pid

section
variable {host : Host} {s s' : Sys} {c : LoadCall} {slot : Slot} {info : SlotInfo}

theorem engine_of_lookup {p : Port} (hl : s.slots.lookup p = some slot) : s.engine p = slot.pid := by
  unfold Sys.engine; rw [hl]; rfl

theorem handle_call_load_serving (hh : c.held = false) (hl : s.slots.lookup c.port = some slot)
    (ha : already_serving slot c.model c.profile = true) :
    handle_call_load host c s = (.ok (slot_info host slot), s) := by
  unfold handle_call_load do_load
  simp only [hh, hl, ha, Bool.false_eq_true, if_false, if_true]

theorem handle_call_load_ok (h : (handle_call_load host c s).1 = .ok info) :
    (∃ slot, c.held = false ∧ s.slots.lookup c.port = some slot ∧
      already_serving slot c.model c.profile = true ∧ (handle_call_load host c s).2 = s) ∨
    ∃ slot pid ref early, Launches s c slot ∧ c.start = .ok pid ref early := by
  by_cases hL : ∃ slot, Launches s c slot
  · obtain ⟨slot, hL⟩ := hL
    cases hs : c.start with
    | ok pid ref early => exact .inr ⟨slot, pid, ref, early, hL, rfl⟩
    | error reason =>
      rw [do_load_launches hL, start_engine_error hs] at h
      cases h
  · have hh : c.held = false := by
      cases hh : c.held with
      | false => rfl
      | true => rw [handle_call_load, hh] at h; cases h
    cases hl : s.slots.lookup c.port with
    | none =>
      unfold handle_call_load do_load at h
      simp only [hh, hl, Bool.false_eq_true, if_false] at h
      cases h
    | some slot =>
      cases ha : already_serving slot c.model c.profile with
      | false => exact absurd ⟨slot, hh, hl, ha⟩ hL
      | true => exact .inl ⟨slot, hh, rfl, ha, by rw [handle_call_load_serving hh hl ha]⟩

theorem already_serving_up {m : ModelRef} {prof : Profile} (h : already_serving slot m prof = true) :
    slot.status = .up := by
  unfold already_serving at h
  split at h
  · rename_i hs _; exact hs
  · cases h

theorem Inv.serving_pid (hi : Inv host s) {p : Port} (hl : s.slots.lookup p = some slot) {m : ModelRef} {prof : Profile}
    (ha : already_serving slot m prof = true) : ∃ pid, slot.pid = some pid := by
  rcases hi.slot p slot hl with rfl | ⟨pid, ref, hR⟩
  · cases already_serving_up ha
  · exact ⟨pid, hR.pid_eq⟩

theorem launch_holds_live {h : History} (hr : Run host h s) {pid : Pid} {ref : Ref} {early : Option Reason}
    (hL : Launches s c slot) (hs : c.start = .ok pid ref early) (hf : fresh s.launched c.start = true) :
    HoldsLive (handle_call_load host c s).2 c.port := by
  have hst : step host s (.load c) = some (handle_call_load host c s).2 := by simp [step, hf]
  have hk : pid ∉ pids s.launched := Starts.fresh hst ⟨c, slot, ref, early, rfl, rfl, hL, hs⟩
  refine ⟨pid, ?_, ?_⟩
  · rw [load_started hL hs]
    simp [Sys.engine, started]
  · rw [load_started hL hs, start_world_terminated]
    intro ht
    exact hk ((run_known hr).terminated pid ((run_inv hr).terminated_room hL.found hk ht))

theorem load_live_iff {h : History} (hr : Run host h s) (hf : fresh s.launched c.start = true) :
    (∀ info, (handle_call_load host c s).1 = .ok info → HoldsLive (handle_call_load host c s).2 c.port) ↔
      ¬ HitsUnloaded h s c := by
  constructor
  · intro hok hx
    obtain ⟨slot, pid, hh, hl, ha, hp, hu⟩ := hx
    have hc : handle_call_load host c s = _ := handle_call_load_serving hh hl ha
    have := hok (slot_info host slot) (by rw [hc])
    rw [hc] at this
    obtain ⟨pid', he, hn⟩ := this
    rw [engine_of_lookup hl, hp] at he
    cases he
    exact hn ((run_story hr c.port slot pid hl hp).terminated.mpr hu)
  · intro hn info hok
    rcases handle_call_load_ok hok with ⟨slot, hh, hl, ha, hs⟩ | ⟨slot, pid, ref, early, hL, hs⟩
    · obtain ⟨pid, hp⟩ := (run_inv hr).serving_pid hl ha
      rw [hs]
      refine ⟨pid, (engine_of_lookup hl).trans hp, fun ht => hn ⟨slot, pid, hh, hl, ha, hp, ?_⟩⟩
      exact (run_story hr c.port slot pid hl hp).terminated.mp ht
    · exact launch_holds_live hr hL hs hf

end

theorem fresh_of_split {host : Host} {h h₁ h₂ : History} {s s₁ : Sys} {c : LoadCall} (hr : Run host h s)
    (he : h = h₁ ++ (s₁, .load c) :: h₂) : Run host h₁ s₁ ∧ fresh s₁.launched c.start = true := by
  obtain ⟨hr₁, s₂, hst⟩ := Machine.Run.split hr he
  simp only [step, Option.ite_none_right_eq_some] at hst
  exact ⟨hr₁, hst.1⟩

def LoadsLive (host : Host) (h : History) : Prop :=
  ∀ h₁ s₁ c h₂, h = h₁ ++ (s₁, .load c) :: h₂ → ∀ info, (handle_call_load host c s₁).1 = .ok info →
    HoldsLive (handle_call_load host c s₁).2 c.port

def LoadsMissUnloaded (h : History) : Prop :=
  ∀ h₁ s₁ c h₂, h = h₁ ++ (s₁, .load c) :: h₂ → ¬ HitsUnloaded h₁ s₁ c

/-- **Loads answered for live engines.** Every `{:ok, info}` of a run leaves in
its slot an engine that Fleet has not terminated, if and only if no load of the
run hits an engine after an accepted unload of it. -/
theorem loads_live_iff {host : Host} {h : History} {s : Sys} (hr : Run host h s) :
    LoadsLive host h ↔ LoadsMissUnloaded h := by
  refine forall_congr' fun h₁ => forall_congr' fun s₁ => forall_congr' fun c => forall_congr' fun h₂ => ?_
  refine forall_congr' fun he => ?_
  obtain ⟨hr₁, hf⟩ := fresh_of_split hr he
  exact load_live_iff hr₁ hf

/-- A swap: the second load evicts the engine the first one started. -/
theorem loads_live_iff_swap : ∃ h s, Run one_slot h s ∧
    h.map Prod.snd = [load_ok model_a 0, load_ok model_b 1] ∧ (LoadsLive one_slot h ↔ LoadsMissUnloaded h) := by
  have he : ∃ s, Machine.exec (step one_slot) (init one_slot) [load_ok model_a 0, load_ok model_b 1] = some s :=
    ⟨_, rfl⟩
  obtain ⟨s, he⟩ := he
  exact ⟨_, s, .of_exec he, rfl, loads_live_iff (.of_exec he)⟩

/-- A load queued behind the unload of its port, handled before the `:DOWN`, is
answered `:up` for the engine the unload has terminated. -/
theorem load_behind_unload_not_live : ∃ h s c info, Run one_slot h s ∧
    h.map Prod.snd = [load_ok model_a 0, .mark_up 0 {} 0, .unload 8081 false, .load c] ∧
    (handle_call_load one_slot c s).1 = .ok info ∧ info.status = .up ∧ ¬ LoadsLive one_slot h := by
  let c : LoadCall := { model := model_a, port := 8081, profile := ∅, start := .ok 1 1 none }
  have he : ∃ s, Machine.exec (step one_slot) (init one_slot)
        [load_ok model_a 0, .mark_up 0 {} 0, .unload 8081 false] = some s ∧
      (∃ info, (handle_call_load one_slot c s).1 = .ok info ∧ info.status = .up) ∧ step one_slot s (.load c) = some s ∧
      (handle_call_load one_slot c s).2.engine 8081 = some 0 ∧
      0 ∈ (handle_call_load one_slot c s).2.otp.terminated :=
    ⟨_, rfl, ⟨_, rfl, rfl⟩, rfl, rfl, by decide⟩
  obtain ⟨s, he, ⟨info, hok, hup⟩, hst, hp, ht⟩ := he
  refine ⟨_, s, c, info, (Machine.Run.of_exec he).snoc hst, rfl, hok, hup, fun hl => ?_⟩
  obtain ⟨pid, hp', hn⟩ := hl _ s c [] rfl info hok
  have e : some 0 = some pid := hp.symm.trans hp'
  cases e
  exact hn ht

end AiroAgent.Fleet
