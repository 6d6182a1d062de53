import AiroAgent.FleetHistory

/-!
# How the end of an engine is reported

The unload intent is kept for a port, and only a handled `:DOWN` clears it. A
swap flushes the `:DOWN` of the engine it evicts, so the intent of an unload
that was overtaken by a load stays behind, and the next engine of the port ends
as `:unloaded` whatever ended it.
-/

namespace AiroAgent.Fleet

/-- A handled `d` is the end of the engine `pid` in slot `p`. -/
structure EndsAt (s : Sys) (d : Otp.Down Pid Ref Reason) (p : Port) (slot : Slot) (pid : Pid) : Prop where
  found : s.slots.lookup p = some slot
  ref_eq : slot.ref = some d.ref
  pid_eq : slot.pid = some pid

/-- An engine ends as `:unloaded` if it was unloaded itself, and else by whether
it ever came up. -/
structure TypeOk (h : History) (pid : Pid) (type : EventType) : Prop where
  unloaded : Unloaded h pid → type = .unloaded
  down : ¬ Unloaded h pid → MarkedUp h pid → type = .down
  failed : ¬ Unloaded h pid → ¬ MarkedUp h pid → type = .failed

section
variable {host : Host} {h : History} {s : Sys} {d : Otp.Down Pid Ref Reason} {p : Port} {slot : Slot} {pid : Pid}

theorem terminal_type_of_not_expected (hs : slot.status ≠ .empty) :
    terminal_type false slot = if slot.status = .up then .down else .failed := by
  unfold terminal_type
  cases hst : slot.status with
  | empty => exact absurd hst hs
  | loading => rfl
  | up => rfl

/-- The type Fleet reports is the right one, unless the intent it found is not
one of the engine that ended. -/
theorem type_ok_iff (hs : slot.status ≠ .empty) (hS : Story h s p slot pid) :
    TypeOk h pid (terminal_type (decide (p ∈ s.intent)) slot) ↔ (StartedUnderIntent h pid → Unloaded h pid) := by
  by_cases hin : p ∈ s.intent
  · have ht : terminal_type (decide (p ∈ s.intent)) slot = .unloaded := by simp [terminal_type, hin]
    rw [ht]
    constructor
    · intro hT _
      by_contra hu
      by_cases hm : MarkedUp h pid
      · cases hT.down hu hm
      · cases hT.failed hu hm
    · intro hc
      have hu : Unloaded h pid := (hS.intent.mp hin).elim id hc
      exact ⟨fun _ => rfl, fun hn => absurd hu hn, fun hn => absurd hu hn⟩
  · have ht : terminal_type (decide (p ∈ s.intent)) slot = if slot.status = .up then .down else .failed := by
      rw [decide_eq_false hin, terminal_type_of_not_expected hs]
    have hnu : ¬ Unloaded h pid := fun hu => hin (hS.intent.mpr (.inl hu))
    have hns : ¬ StartedUnderIntent h pid := fun hu => hin (hS.intent.mpr (.inr hu))
    rw [ht]
    refine iff_of_true ⟨fun hu => absurd hu hnu, fun _ hm => ?_, fun _ hm => ?_⟩ fun hu => absurd hu hns
    · rw [if_pos (hS.up.mpr hm)]
    · rw [if_neg fun hup => hm (hS.up.mp hup)]

theorem step_down_emits (hi : Inv host s) {now : Time} {s' : Sys} (hst : step host s (.down d now) = some s')
    (hE : EndsAt s d p slot pid) :
    s'.events = s.events ++ [⟨some pid, event_of host slot (terminal_type (decide (p ∈ s.intent)) slot)
      (if p ∈ s.intent then none else some d.reason) now⟩] := by
  have hfind := hi.find_by_ref_eq hE.found hE.ref_eq
  cases step_trans hst with
  | down_noop hd hf => rw [hfind] at hf; cases hf
  | down hd hf =>
    rw [hfind] at hf; cases hf
    rw [← hE.pid_eq]

end

def EndsReported (host : Host) (h : History) : Prop :=
  ∀ h₁ s₁ d now h₂ p slot pid, h = h₁ ++ (s₁, .down d now) :: h₂ → EndsAt s₁ d p slot pid →
    ∃ s₂ e, step host s₁ (.down d now) = some s₂ ∧ s₂.events = s₁.events ++ [⟨some pid, e⟩] ∧ e.port = p ∧
      TypeOk h₁ pid e.type

/-- An engine that was started under the intent of an earlier unload, and whose
`:DOWN` Fleet handles, was unloaded itself. -/
def EndsMissStaleIntent (h : History) : Prop :=
  ∀ h₁ s₁ d now h₂ p slot pid, h = h₁ ++ (s₁, .down d now) :: h₂ → EndsAt s₁ d p slot pid →
    StartedUnderIntent h₁ pid → Unloaded h₁ pid

/-- **Crash or clean teardown.** Every end of an engine is reported as what it was,
if and only if none falls to an engine that took over a stale intent. -/
theorem ends_reported_iff {host : Host} {h : History} {s : Sys} (hr : Run host h s) :
    EndsReported host h ↔ EndsMissStaleIntent h := by
  refine forall_congr' fun h₁ => forall_congr' fun s₁ => forall_congr' fun d => forall_congr' fun now => ?_
  refine forall_congr' fun h₂ => forall_congr' fun p => forall_congr' fun slot => forall_congr' fun pid => ?_
  refine forall_congr' fun he => forall_congr' fun hE => ?_
  obtain ⟨hr₁, s₂, hst⟩ := Machine.Run.split hr he
  have hi := run_inv hr₁
  obtain ⟨ref, hR⟩ := hi.resident hE.found hE.pid_eq
  have hev := step_down_emits hi hst hE
  rw [← type_ok_iff hR.status (run_story hr₁ p slot pid hE.found hE.pid_eq)]
  constructor
  · intro hx
    obtain ⟨s₂', e, hst', hev', -, hT⟩ := hx
    rw [hst] at hst'; cases hst'
    have := List.append_cancel_left (hev.symm.trans hev')
    cases this
    exact hT
  · intro hT
    exact ⟨s₂, _, hst, hev, hR.port_eq, hT⟩

/-- An engine is loaded, comes up and crashes. -/
theorem ends_reported_iff_crash : ∃ h s, Run one_slot h s ∧
    h.map Prod.snd = [load_ok model_a 0, .mark_up 0 {} 0, .exit 0 (.other "boom"), .down ⟨0, 0, .other "boom"⟩ 1] ∧
    (EndsReported one_slot h ↔ EndsMissStaleIntent h) := by
  have he : ∃ s, Machine.exec (step one_slot) (init one_slot)
      [load_ok model_a 0, .mark_up 0 {} 0, .exit 0 (.other "boom"), .down ⟨0, 0, .other "boom"⟩ 1] = some s := ⟨_, rfl⟩
  obtain ⟨s, he⟩ := he
  exact ⟨_, s, .of_exec he, rfl, ends_reported_iff (.of_exec he)⟩

/-- The unload of model a is overtaken by the load of model b. Nobody unloads b,
it comes up and crashes, and its end is published as `:unloaded`. -/
theorem crash_after_overtaken_unload : ∃ h s, Run one_slot h s ∧
    h.map Prod.snd = [load_ok model_a 0, .unload 8081 false, load_ok model_b 1, .mark_up 1 {} 0,
      .exit 1 (.other "boom"), .down ⟨1, 1, .other "boom"⟩ 1] ∧
    (s.events.getLast?.map fun e => (e.pid, e.event.type)) = some (some 1, .unloaded) ∧ ¬ EndsReported one_slot h := by
  let tr : List Input := [load_ok model_a 0, .unload 8081 false, load_ok model_b 1, .mark_up 1 {} 0, .exit 1 (.other "boom")]
  let d : Otp.Down Pid Ref Reason := ⟨1, 1, .other "boom"⟩
  have he : ∃ s s' slot, Machine.exec (step one_slot) (init one_slot) tr = some s ∧ step one_slot s (.down d 1) = some s' ∧
      s.slots.lookup 8081 = some slot ∧ slot.ref = some d.ref ∧ slot.pid = some 1 ∧ slot.status = .up ∧
      1 ∉ s.otp.terminated ∧ (s'.events.getLast?.map fun e => (e.pid, e.event.type)) = some (some 1, .unloaded) :=
    ⟨_, _, _, rfl, rfl, rfl, rfl, rfl, rfl, by decide, rfl⟩
  obtain ⟨s, s', slot, he, hst, hl, hr, hp, hup, hnt, hlast⟩ := he
  refine ⟨_, s', (Machine.Run.of_exec he).snoc hst, rfl, hlast, fun hrep => ?_⟩
  obtain ⟨s₂, e, hst₂, hev, -, hT⟩ := hrep _ s d 1 [] 8081 slot 1 rfl ⟨hl, hr, hp⟩
  rw [hst] at hst₂; cases hst₂
  have hS := run_story (.of_exec he) 8081 slot 1 hl hp
  have hdown : e.type = .down := hT.down (fun hu => hnt (hS.terminated.mpr hu)) (hS.up.mp hup)
  rw [hev] at hlast
  simp [hdown] at hlast

end AiroAgent.Fleet
