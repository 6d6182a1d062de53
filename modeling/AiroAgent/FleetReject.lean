import AiroAgent.FleetLoad
import AiroAgent.Instance

/-!
# Loads that are rejected

The two guards answer before anything is touched. A start that fails comes
after the eviction: what the slot held is gone by then, and everything outside
of the slot is as it was.
-/

namespace AiroAgent.Fleet

/-- Nothing but the slot of the call and the engine that was in it differs. -/
structure KeepsOthers (c : LoadCall) (s s' : Sys) : Prop where
  intent : s'.intent = s.intent
  slots : ∀ p, p ≠ c.port → s'.slots.lookup p = s.slots.lookup p
  engines : ∀ pid, s.engine c.port ≠ some pid → (pid ∈ s'.otp.children ↔ pid ∈ s.otp.children)

/-- The resident engine, if any, was evicted and its slot is empty. -/
structure SlotCleared (c : LoadCall) (s s' : Sys) : Prop where
  others : KeepsOthers c s s'
  slot : s'.slots.lookup c.port = some (empty_slot c.port)
  stopped : ∀ pid, s.engine c.port = some pid → pid ∉ s'.otp.children
  /-- With no resident there was nothing to evict. -/
  vacant : s.engine c.port = none → (∀ p, s'.slots.lookup p = s.slots.lookup p) ∧ s'.otp.children = s.otp.children

def Rejected (c : LoadCall) (s s' : Sys) : LoadError → Prop
  | .peer_rank_resident => s' = s
  | .unknown_slot => s' = s
  | .start_failed _ => SlotCleared c s s'

section
variable {host : Host} {s : Sys} {c : LoadCall} {slot : Slot} {h : History} {e : LoadError}

theorem handle_call_load_error (he : (handle_call_load host c s).1 = .error e) :
    (handle_call_load host c s).2 = s ∧ (∀ reason, e ≠ .start_failed reason) ∨
      ∃ slot reason, Launches s c slot ∧ c.start = .error reason ∧ e = .start_failed reason := by
  by_cases hL : ∃ slot, Launches s c slot
  · obtain ⟨slot, hL⟩ := hL
    cases hs : c.start with
    | ok pid ref early =>
      rw [do_load_launches hL, start_engine_ok hs] at he
      cases he
    | error reason =>
      rw [do_load_launches hL, start_engine_error hs] at he
      cases he
      exact .inr ⟨slot, reason, hL, rfl, rfl⟩
  · refine .inl ⟨handle_call_load_noop fun slot hl => hL ⟨slot, hl⟩, ?_⟩
    intro reason hreason
    subst hreason
    unfold handle_call_load do_load at he
    cases hh : c.held with
    | true =>
      simp only [hh, if_true] at he
      cases he
    | false =>
      simp only [hh, Bool.false_eq_true, if_false] at he
      cases hl : s.slots.lookup c.port with
      | none =>
        simp only [hl] at he
        cases he
      | some slot =>
        cases ha : already_serving slot c.model c.profile with
        | false => exact hL ⟨slot, hh, hl, ha⟩
        | true =>
          simp only [hl, ha, if_true] at he
          cases he

theorem mem_room_children (hi : Inv host s) (hl : s.slots.lookup c.port = some slot) {pid : Pid} :
    pid ∈ (room slot s.otp).children ↔ pid ∈ s.otp.children ∧ s.engine c.port ≠ some pid := by
  rw [engine_of_lookup hl]
  rcases hi.slot c.port slot hl with rfl | ⟨pid', ref, hR⟩
  · simp [room, empty_slot]
  · rw [room_children hR.pid_eq hR.ref_eq, hR.pid_eq, Finset.mem_erase]
    simp [and_comm, eq_comm]

theorem load_fail_clears (hi : Inv host s) {reason : Reason} (hL : Launches s c slot) (hs : c.start = .error reason) :
    SlotCleared c s (handle_call_load host c s).2 := by
  rw [load_failed hL hs]
  refine ⟨⟨rfl, ?_, ?_⟩, ?_, ?_, ?_⟩
  · intro p hp
    exact AList.lookup_insert_ne hp
  · intro pid hne
    simp [mem_room_children hi hL.found, hne]
  · exact AList.lookup_insert s.slots
  · intro pid hpid
    simp [mem_room_children hi hL.found, hpid]
  · intro hnone
    have hslot : slot = empty_slot c.port := by
      rcases hi.slot c.port slot hL.found with hempty | ⟨pid, ref, hR⟩
      · exact hempty
      · rw [engine_of_lookup hL.found, hR.pid_eq] at hnone
        cases hnone
    subst hslot
    refine ⟨fun p => ?_, rfl⟩
    by_cases hp : p = c.port
    · subst hp
      rw [hL.found]
      exact AList.lookup_insert s.slots
    · exact AList.lookup_insert_ne hp

/-- **A rejected load.** Behind either guard it changes nothing; when the start fails it
has changed nothing but its own slot, which is empty, and the engine that was in it. -/
theorem rejected_load_keeps (hr : Run host h s) (he : (handle_call_load host c s).1 = .error e) :
    Rejected c s (handle_call_load host c s).2 e := by
  rcases handle_call_load_error he with ⟨hs, hne⟩ | ⟨slot, reason, hL, hs, rfl⟩
  · cases e with
    | peer_rank_resident => exact hs
    | unknown_slot => exact hs
    | start_failed reason => exact absurd rfl (hne reason)
  · exact load_fail_clears (run_inv hr) hL hs

end

/-! ## A swap to a model that cannot start -/

def across_hosts : Profile := List.toAList [⟨.nnodes, .int 2⟩]

/-- Two hosts asked for, none configured: `start_child` gives the error of `launch_spec`. -/
def load_across (pid : Pid) : LoadCall where
  model := { id := "c", path := "/models/c", engine := .vllm }
  port := 8081
  profile := across_hosts
  start := Instance.start_child one_slot { id := "c", path := "/models/c", engine := .vllm } across_hosts 8081 (.ok ()) pid pid none

theorem load_across_start (pid : Pid) : (load_across pid).start = .error (.other "vllm_cluster_not_configured") := by
  have hinit : (Instance.init one_slot { id := "c", path := "/models/c", engine := .vllm } across_hosts 8081 (.ok ())).2 =
      .error (.other "vllm_cluster_not_configured") :=
    Instance.init_without_cluster rfl (n := 2) (by decide) rfl rfl
  simp [load_across, Instance.start_child, hinit]

theorem launches_across {s : Sys} {slot : Slot} {m : ModelRef} {pid : Pid} (hl : s.slots.lookup 8081 = some slot)
    (hm : slot.model = some m) (hid : m.id ≠ "c") : Launches s (load_across pid) slot := by
  refine ⟨rfl, hl, ?_⟩
  unfold already_serving
  rw [hm]
  cases slot.status <;> simp [load_across, hid]

theorem load_across_rejected {s : Sys} {slot : Slot} {m : ModelRef} {pid : Pid} (hl : s.slots.lookup 8081 = some slot)
    (hm : slot.model = some m) (hid : m.id ≠ "c") :
    (handle_call_load one_slot (load_across pid) s).1 = .error (.start_failed (.other "vllm_cluster_not_configured")) := by
  rw [do_load_launches (launches_across hl hm hid), start_engine_error (load_across_start pid)]

/-- Model `a` comes up on 8081. -/
def serving_a : List Input := [load_ok model_a 0, .mark_up 0 {} 1]

theorem serving_a_up : ∃ s slot, Machine.exec (step one_slot) (init one_slot) serving_a = some s ∧
    s.slots.lookup 8081 = some slot ∧ slot.model = some model_a ∧ slot.status = .up ∧ s.engine 8081 = some 0 ∧
    0 ∈ s.otp.children :=
  ⟨_, _, rfl, rfl, rfl, rfl, rfl, by decide⟩

theorem rejected_load_keeps_swap : ∃ h s, Run one_slot h s ∧ h.map Prod.snd = serving_a ∧
    Rejected (load_across 1) s (handle_call_load one_slot (load_across 1) s).2
      (.start_failed (.other "vllm_cluster_not_configured")) := by
  obtain ⟨s, slot, he, hl, hm, -⟩ := serving_a_up
  exact ⟨_, s, .of_exec he, Machine.visits_inputs he,
    rejected_load_keeps (.of_exec he) (load_across_rejected hl hm (by decide))⟩

/-- The model that was up is gone, though all the call answers is an error. -/
theorem rejected_load_stops_serving : ∃ h s slot, Run one_slot h s ∧ h.map Prod.snd = serving_a ∧
    s.slots.lookup 8081 = some slot ∧ slot.status = .up ∧ 0 ∈ s.otp.children ∧
    (handle_call_load one_slot (load_across 1) s).1 = .error (.start_failed (.other "vllm_cluster_not_configured")) ∧
    (handle_call_load one_slot (load_across 1) s).2.slots.lookup 8081 = some (empty_slot 8081) ∧
    0 ∉ (handle_call_load one_slot (load_across 1) s).2.otp.children := by
  obtain ⟨s, slot, he, hl, hm, hup, hpid, hc⟩ := serving_a_up
  have hL : Launches s (load_across 1) slot := launches_across hl hm (by decide)
  have hcleared := load_fail_clears (run_inv (.of_exec he)) hL (load_across_start 1)
  exact ⟨_, s, slot, .of_exec he, Machine.visits_inputs he, hl, hup, hc, load_across_rejected hl hm (by decide),
    hcleared.slot, hcleared.stopped 0 hpid⟩

end AiroAgent.Fleet
