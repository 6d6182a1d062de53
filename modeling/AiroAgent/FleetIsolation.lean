import AiroAgent.FleetPort

/-!
# Slots do not interfere

`mark_up` and `:DOWN` carry no port, and the intents share one set. Still the
slot of a port, and the events of the port, are what they would be if every
input about another port were deleted from the run. A pid is about the port it
was launched on; the run that is left over launches the engines of one port
only, and agrees with the full run on these.
-/

namespace AiroAgent.Fleet

def launched_on (p : Port) (launched : List Launch) (pid : Pid) : Bool :=
  launched.any fun l => l.port == p && l.pid == pid

def concerns (p : Port) (s : Sys) : Input → Bool
  | .load c => c.port == p
  | .unload port _ => port == p
  | .mark_up pid _ _ => launched_on p s.launched pid
  | .down d _ => launched_on p s.launched d.pid
  | .exit pid _ => launched_on p s.launched pid
  | .bind pid => launched_on p s.launched pid
  | .release pid => launched_on p s.launched pid

/-- `t` is what `s` is for port `p`, and nothing else. -/
structure Alike (host : Host) (p : Port) (s t : Sys) : Prop where
  inv : Inv host s
  inv' : Inv host t
  slot : t.slots.lookup p = s.slots.lookup p
  intent : p ∈ t.intent ↔ p ∈ s.intent
  events : t.events = sent p s.events
  launched : t.launched = s.launched.filter (·.port = p)
  otp : Otp.World.AgreeOn (pids t.launched) s.otp t.otp

/-! ## Agreeing worlds -/

section
variable {w v : Otp.World Pid Ref Reason} {P : Set Pid} {pid : Pid} {ref : Ref} {early : Option Reason} {slot : Slot}

theorem room_agree (h : Otp.World.AgreeOn P w v) (slot : Slot) : Otp.World.AgreeOn P (room slot w) (room slot v) := by
  unfold room
  split
  · exact h.demonitor_flush.terminate_child
  · exact h

theorem room_agree_left (h : Otp.World.AgreeOn P w v)
    (hs : ∀ pid ref, slot.pid = some pid → slot.ref = some ref → pid ∉ P ∧ ∀ q ∈ P, ¬ w.Tracks ref q) :
    Otp.World.AgreeOn P (room slot w) v := by
  unfold room
  split
  · rename_i pid ref hp hr
    obtain ⟨hn, ht⟩ := hs pid ref hp hr
    exact (h.demonitor_flush_left ht).terminate_child_left hn
  · exact h

theorem start_world_agree (h : Otp.World.AgreeOn P w v) (hw : ∀ r, ¬ w.Tracks r pid) (hv : ∀ r, ¬ v.Tracks r pid) :
    Otp.World.AgreeOn (insert pid P) (start_world pid ref early w) (start_world pid ref early v) := by
  have hs := h.start_child hw hv
  cases early with
  | none => exact hs.monitor (Set.mem_insert _ _)
  | some reason =>
    have he : Otp.World.AgreeOn (insert pid P) ((w.start_child pid).exit pid reason) ((v.start_child pid).exit pid reason) :=
      hs.exit
    exact he.monitor (Set.mem_insert _ _)

theorem start_world_agree_left (h : Otp.World.AgreeOn P w v) (hp : pid ∉ P) :
    Otp.World.AgreeOn P (start_world pid ref early w) v := by
  have hs := h.start_child_left hp
  cases early with
  | none => exact hs.monitor_left hp
  | some reason =>
    have he : Otp.World.AgreeOn P ((w.start_child pid).exit pid reason) v := hs.exit_left hp
    exact he.monitor_left hp

end

/-! ## Deleted inputs -/

section
variable {host : Host} {p : Port} {s s' t : Sys} {i : Input} {slot : Slot} {pid : Pid}

theorem launched_on_iff {launched : List Launch} : launched_on p launched pid = true ↔
    pid ∈ pids (launched.filter (·.port = p)) := by
  simp [launched_on, pids, and_assoc, and_left_comm]

theorem Alike.concerns_pid (hA : Alike host p s t) : launched_on p s.launched pid = true ↔ pid ∈ pids t.launched := by
  rw [launched_on_iff, hA.launched]

theorem Inv.launched_on_slot (hi : Inv host s) (hl : s.slots.lookup p = some slot) (hp : slot.pid = some pid) :
    launched_on p s.launched pid = true := by
  obtain ⟨ref, hR⟩ := hi.resident hl hp
  rw [launched_on_iff]
  exact ⟨_, List.mem_filter.mpr ⟨hR.launched, by simp⟩, rfl⟩

theorem Inv.of_launched_on (hi : Inv host s) (hp : launched_on p s.launched pid = true) {q : Port}
    (hl : s.slots.lookup q = some slot) (hq : slot.pid = some pid) : q = p := by
  obtain ⟨l, hl', e⟩ := launched_on_iff.mp hp
  obtain ⟨hl', hport⟩ := List.mem_filter.mp hl'
  obtain ⟨ref, hR⟩ := hi.resident hl hq
  have := hi.launch_eq_of_pid hR.launched hl' e.symm
  rw [← this] at hport
  simpa using hport

theorem untouched_of_not_concerns (hi : Inv host s) (hst : step host s i = some s') (hl : s.slots.lookup p = some slot)
    (hc : concerns p s i = false) : s'.slots.lookup p = some slot ∧ sent p s'.events = sent p s.events := by
  obtain ⟨slot', es, hl', hes, hps⟩ := step_port hi hst hl
  cases hps with
  | same _ => exact ⟨hl', by rw [hes, List.append_nil]⟩
  | start e hp => subst e; simp [concerns, hp] at hc
  | clear hC => obtain ⟨c, _, _, rfl, hp, -⟩ := hC; simp [concerns, hp] at hc
  | mark_up e hp =>
    subst e
    rw [concerns, hi.launched_on_slot hl hp] at hc; cases hc
  | @down d now e hr =>
    subst e
    obtain ⟨pid, hR⟩ := hi.resident_ref hl hr
    have hd : d ∈ s.otp.mailbox := by
      cases step_trans hst with
      | down_noop hd => exact hd
      | down hd => exact hd
    rw [concerns, hi.down_pid hR hd rfl, hi.launched_on_slot hl hR.pid_eq] at hc; cases hc

theorem Alike.not_mem (hA : Alike host p s t) (hn : launched_on p s.launched pid = false) : pid ∉ pids t.launched := by
  intro h
  rw [hA.concerns_pid.mpr h] at hn; cases hn

theorem Alike.not_mem_of_fresh (hA : Alike host p s t) (hn : pid ∉ pids s.launched) : pid ∉ pids t.launched := by
  rw [hA.launched]
  intro h
  obtain ⟨l, hl, e⟩ := h
  exact hn ⟨l, (List.mem_filter.mp hl).1, e⟩

theorem Alike.other_slot (hA : Alike host p s t) {q : Port} (hl : s.slots.lookup q = some slot) (hq : q ≠ p) {ref : Ref}
    (hp : slot.pid = some pid) (hr : slot.ref = some ref) :
    pid ∉ pids t.launched ∧ ∀ x ∈ pids t.launched, ¬ s.otp.Tracks ref x := by
  have hn : pid ∉ pids t.launched := by
    intro h
    exact hq (hA.inv.of_launched_on (hA.concerns_pid.mpr h) hl hp)
  refine ⟨hn, fun x hx ht => ?_⟩
  obtain ⟨ref', hR⟩ := hA.inv.resident hl hp
  have e : ref' = ref := Option.some.inj (hR.ref_eq.symm.trans hr)
  subst e
  obtain ⟨l, hl', he⟩ := hA.inv.good.taken _ _ ht
  have := hA.inv.launch_eq_of_ref hl' hR.launched (Prod.mk.inj he).1
  subst this
  have hx' : pid = x := (Prod.mk.inj he).2
  exact hn (hx' ▸ hx)

theorem Alike.drop (hA : Alike host p s t) (hp : p ∈ host.slots) (hst : step host s i = some s')
    (hc : concerns p s i = false) : Alike host p s' t := by
  obtain ⟨slot, hl⟩ := Option.isSome_iff_exists.mp (AList.lookup_isSome.mpr ((hA.inv.keys p).mpr hp))
  obtain ⟨hl', hes⟩ := untouched_of_not_concerns hA.inv hst hl hc
  suffices h : (p ∈ s'.intent ↔ p ∈ s.intent) ∧ s'.launched.filter (·.port = p) = s.launched.filter (·.port = p) ∧
      Otp.World.AgreeOn (pids t.launched) s'.otp t.otp by
    obtain ⟨hin, hla, ho⟩ := h
    exact ⟨inv_step hA.inv hst, hA.inv', by rw [hA.slot, hl, hl'], hA.intent.trans hin.symm, by rw [hA.events, hes],
      by rw [hA.launched, hla], ho⟩
  cases step_trans hst with
  | load_noop | mark_up_noop | mark_up | unload_noop | bind | release => exact ⟨Iff.rfl, rfl, hA.otp⟩
  | @load_start c slot₀ pid ref early l hL hs hf =>
    have hq : c.port ≠ p := by simpa [concerns] using hc
    refine ⟨Iff.rfl, ?_, ?_⟩
    · rw [List.filter_append, List.filter_cons_of_neg (by simpa using hq), List.filter_nil, List.append_nil]
    · refine start_world_agree_left (room_agree_left hA.otp fun _ _ => hA.other_slot hL.found hq) ?_
      exact hA.not_mem_of_fresh (Starts.fresh hst ⟨c, slot₀, ref, early, rfl, rfl, hL, hs⟩)
  | @load_fail c slot₀ reason l hL hs =>
    have hq : c.port ≠ p := by simpa [concerns] using hc
    exact ⟨Iff.rfl, rfl, room_agree_left hA.otp fun _ _ => hA.other_slot hL.found hq⟩
  | @unload port slot₀ pid hl₀ hp₀ =>
    have hq : port ≠ p := by simpa [concerns] using hc
    obtain ⟨ref, hR⟩ := hA.inv.resident hl₀ hp₀
    refine ⟨?_, rfl, hA.otp.terminate_child_left (hA.other_slot hl₀ hq hp₀ hR.ref_eq).1⟩
    rw [Finset.mem_insert]
    exact or_iff_right (Ne.symm hq)
  | down_noop hd hf => exact ⟨Iff.rfl, rfl, hA.otp.receive_left (hA.not_mem hc)⟩
  | @down d now port slot₀ hd hf =>
    obtain ⟨hl₀, hr₀⟩ := find_by_ref_some hf
    obtain ⟨pid, hR⟩ := hA.inv.resident_ref hl₀ hr₀
    have hq : p ≠ port := by
      intro e
      subst e
      rw [concerns, hA.inv.down_pid hR hd rfl, hA.inv.launched_on_slot hl₀ hR.pid_eq] at hc; cases hc
    refine ⟨?_, rfl, hA.otp.receive_left (hA.not_mem hc)⟩
    rw [Finset.mem_erase]
    exact and_iff_right hq
  | exit hp' => exact ⟨Iff.rfl, rfl, hA.otp.exit_left (hA.not_mem hc)⟩

/-! ## Kept inputs -/

theorem Inv.find_by_pid_at (hi : Inv host s) (hp : launched_on p s.launched pid = true) (hl : s.slots.lookup p = some slot) :
    find_by_pid s.slots pid = if slot.pid = some pid then some ⟨p, slot⟩ else none := by
  by_cases hs : slot.pid = some pid
  · rw [if_pos hs, hi.find_by_pid_eq hl hs]
  · rw [if_neg hs]
    cases hf : find_by_pid s.slots pid with
    | none => rfl
    | some e =>
      obtain ⟨hle, hpe⟩ := find_by_pid_some hf
      obtain ⟨q, slot'⟩ := e
      obtain rfl : q = p := hi.of_launched_on hp hle hpe
      rw [hl] at hle; cases hle
      exact absurd hpe hs

theorem Inv.find_by_ref_at (hi : Inv host s) {d : Otp.Down Pid Ref Reason} (hd : d ∈ s.otp.mailbox)
    (hp : launched_on p s.launched d.pid = true) (hl : s.slots.lookup p = some slot) :
    find_by_ref s.slots d.ref = if slot.ref = some d.ref then some ⟨p, slot⟩ else none := by
  by_cases hs : slot.ref = some d.ref
  · rw [if_pos hs, hi.find_by_ref_eq hl hs]
  · rw [if_neg hs]
    cases hf : find_by_ref s.slots d.ref with
    | none => rfl
    | some e =>
      obtain ⟨hle, hre⟩ := find_by_ref_some hf
      obtain ⟨q, slot'⟩ := e
      obtain ⟨pid, hR⟩ := hi.resident_ref hle hre
      obtain rfl : q = p := hi.of_launched_on hp hle (hi.down_pid hR hd rfl ▸ hR.pid_eq)
      rw [hl] at hle; cases hle
      exact absurd hre hs

theorem Alike.launches (hA : Alike host p s t) {c : LoadCall} (hp : c.port = p) : Launches s c slot ↔ Launches t c slot := by
  subst hp
  constructor
  · intro h
    obtain ⟨h₁, h₂, h₃⟩ := h
    exact ⟨h₁, hA.slot.trans h₂, h₃⟩
  · intro h
    obtain ⟨h₁, h₂, h₃⟩ := h
    exact ⟨h₁, hA.slot.symm.trans h₂, h₃⟩

theorem Alike.fresh (hA : Alike host p s t) {st : StartChild} (h : fresh s.launched st = true) : fresh t.launched st = true := by
  rw [hA.launched]
  cases st with
  | error reason => rfl
  | ok pid ref early =>
    exact List.all_eq_true.mpr fun l hl => List.all_eq_true.mp h l (List.mem_filter.mp hl).1

theorem Alike.keep_load (hA : Alike host p s t) {c : LoadCall} (hst : step host s (.load c) = some s') (hp : c.port = p) :
    ∃ t', step host t (.load c) = some t' ∧ Alike host p s' t' := by
  have hst₀ := hst
  simp only [step, Option.ite_none_right_eq_some, Option.some.injEq] at hst
  obtain ⟨hf, rfl⟩ := hst
  have hst' : step host t (.load c) = some (handle_call_load host c t).2 := by simp [step, hA.fresh hf]
  refine ⟨_, hst', ?_⟩
  have hi := inv_step hA.inv hst₀
  have hi' := inv_step hA.inv' hst'
  by_cases hL : ∃ slot, Launches s c slot
  · obtain ⟨slot, hL⟩ := hL
    have hL' := (hA.launches hp).mp hL
    cases hs : c.start with
    | ok pid ref early =>
      have hn : pid ∉ pids s.launched := Starts.fresh hst₀ ⟨c, slot, ref, early, rfl, rfl, hL, hs⟩
      rw [load_started hL hs] at hi ⊢
      rw [load_started hL' hs] at hi' ⊢
      refine ⟨hi, hi', ?_, hA.intent, ?_, ?_, ?_⟩
      · subst hp
        rw [AList.lookup_insert, AList.lookup_insert]
      · rw [hA.events, sent_snoc_self hp]
      · rw [List.filter_append, hA.launched, List.filter_cons_of_pos (by simpa using hp), List.filter_nil]
      · rw [pids_append]
        exact start_world_agree (room_agree hA.otp slot) ((room_good hA.inv.good).not_mem_of_fresh hn).2
          ((room_good hA.inv'.good).not_mem_of_fresh (hA.not_mem_of_fresh hn)).2
    | error reason =>
      rw [load_failed hL hs] at hi ⊢
      rw [load_failed hL' hs] at hi' ⊢
      refine ⟨hi, hi', ?_, hA.intent, hA.events, hA.launched, room_agree hA.otp slot⟩
      subst hp
      rw [AList.lookup_insert, AList.lookup_insert]
  · have hL' : ¬ ∃ slot, Launches t c slot := by
      intro h
      obtain ⟨slot, h⟩ := h
      exact hL ⟨slot, (hA.launches hp).mpr h⟩
    rw [handle_call_load_noop (not_exists.mp hL), handle_call_load_noop (not_exists.mp hL')]
    exact hA

theorem Alike.keep_unload (hA : Alike host p s t) {held : Bool} (hst : step host s (.unload p held) = some s') :
    ∃ t', step host t (.unload p held) = some t' ∧ Alike host p s' t' := by
  refine ⟨_, rfl, ?_⟩
  have hi := inv_step hA.inv hst
  have hi' : Inv host (handle_call_unload p held t).2 := inv_step (i := .unload p held) hA.inv' rfl
  cases hst
  unfold handle_call_unload do_unload at hi hi' ⊢
  rw [hA.slot] at hi' ⊢
  cases held with
  | true => exact hA
  | false =>
    simp only [Bool.false_eq_true, if_false] at hi hi' ⊢
    cases hl : s.slots.lookup p with
    | none => exact hA
    | some slot =>
      cases hp : slot.pid with
      | none => simp only [hp]; exact hA
      | some pid =>
        simp only [hl, hp] at hi hi' ⊢
        refine ⟨hi, hi', hA.slot, ?_, hA.events, hA.launched, hA.otp.terminate_child⟩
        simp

theorem Alike.launched_on_right (hA : Alike host p s t) (hc : launched_on p s.launched pid = true) :
    launched_on p t.launched pid = true := by
  rw [launched_on_iff, hA.launched, List.filter_filter]
  simpa using launched_on_iff.mp hc

theorem Alike.slot_eq (hA : Alike host p s t) (hp : p ∈ host.slots) :
    ∃ slot, s.slots.lookup p = some slot ∧ t.slots.lookup p = some slot ∧ slot.port = p := by
  obtain ⟨slot, hl⟩ := Option.isSome_iff_exists.mp (AList.lookup_isSome.mpr ((hA.inv.keys p).mpr hp))
  exact ⟨slot, hl, hA.slot.trans hl, (hA.inv.slot p slot hl).port_eq⟩

theorem Alike.keep_mark_up (hA : Alike host p s t) (hp : p ∈ host.slots) {props : Props} {now : Time}
    (hst : step host s (.mark_up pid props now) = some s') (hc : launched_on p s.launched pid = true) :
    ∃ t', step host t (.mark_up pid props now) = some t' ∧ Alike host p s' t' := by
  obtain ⟨slot, hl, hl', hport⟩ := hA.slot_eq hp
  have hst' : step host t (.mark_up pid props now) = some (handle_cast_mark_up host pid props now t) := by
    obtain ⟨l, hl, e⟩ := hA.concerns_pid.mp hc
    rw [step, if_pos (List.any_eq_true.mpr ⟨l, hl, by simpa using e⟩)]
  refine ⟨_, hst', ?_⟩
  have hi := inv_step hA.inv hst
  have hi' := inv_step hA.inv' hst'
  simp only [step, Option.ite_none_right_eq_some, Option.some.injEq] at hst
  obtain ⟨-, rfl⟩ := hst
  unfold handle_cast_mark_up at hi hi' ⊢
  rw [hA.inv.find_by_pid_at hc hl] at hi ⊢
  rw [hA.inv'.find_by_pid_at (hA.launched_on_right hc) hl'] at hi' ⊢
  by_cases hs : slot.pid = some pid
  · by_cases hload : slot.status = .loading
    · simp only [hs, hload, if_true] at hi hi' ⊢
      refine ⟨hi, hi', ?_, hA.intent, ?_, hA.launched, hA.otp⟩
      · show (t.slots.insert p _).lookup p = (s.slots.insert p _).lookup p
        rw [AList.lookup_insert, AList.lookup_insert]
      · show t.events ++ _ = sent p (s.events ++ _)
        rw [hA.events, sent_snoc_self hport]
    · simp only [hs, hload, if_true, if_false]
      exact hA
  · simp only [hs, if_false]
    exact hA

theorem Alike.keep_down (hA : Alike host p s t) (hp : p ∈ host.slots) {d : Otp.Down Pid Ref Reason} {now : Time}
    (hst : step host s (.down d now) = some s') (hc : launched_on p s.launched d.pid = true) :
    ∃ t', step host t (.down d now) = some t' ∧ Alike host p s' t' := by
  obtain ⟨slot, hl, hl', hport⟩ := hA.slot_eq hp
  have hd : d ∈ s.otp.mailbox := by
    simp only [step, Option.ite_none_right_eq_some] at hst
    exact hst.1
  have hd' : d ∈ t.otp.mailbox := (hA.otp.mailbox d (hA.concerns_pid.mp hc)).mp hd
  have hst' : step host t (.down d now) = some (handle_info_down host d now { t with otp := t.otp.receive d }) := by
    rw [step, if_pos hd']
  refine ⟨_, hst', ?_⟩
  have hi := inv_step hA.inv hst
  have hi' := inv_step hA.inv' hst'
  simp only [step, Option.ite_none_right_eq_some, Option.some.injEq] at hst
  obtain ⟨-, rfl⟩ := hst
  unfold handle_info_down at hi hi' ⊢
  simp only [hA.inv.find_by_ref_at hd hc hl, hA.inv'.find_by_ref_at hd' (hA.launched_on_right hc) hl'] at hi hi' ⊢
  by_cases hs : slot.ref = some d.ref
  · simp only [hs, if_true] at hi hi' ⊢
    refine ⟨hi, hi', ?_, ?_, ?_, hA.launched, hA.otp.receive⟩
    · show (t.slots.insert p _).lookup p = (s.slots.insert p _).lookup p
      rw [AList.lookup_insert, AList.lookup_insert]
    · simp [Sys.emit]
    · show t.events ++ _ = sent p (s.events ++ _)
      rw [sent_snoc_self hport, hA.events, decide_eq_decide.mpr hA.intent]
  · simp only [hs, if_false] at hi hi' ⊢
    exact ⟨hi, hi', hA.slot, hA.intent, hA.events, hA.launched, hA.otp.receive⟩

theorem Alike.keep (hA : Alike host p s t) (hp : p ∈ host.slots) (hst : step host s i = some s')
    (hc : concerns p s i = true) : ∃ t', step host t i = some t' ∧ Alike host p s' t' := by
  have hmem : ∀ {x}, launched_on p s.launched x = true → (x ∈ s.otp.children ↔ x ∈ t.otp.children) :=
    fun h => hA.otp.children _ (hA.concerns_pid.mp h)
  cases i with
  | load c => exact hA.keep_load hst (by simpa [concerns] using hc)
  | unload port held =>
    obtain rfl : port = p := by simpa [concerns] using hc
    exact hA.keep_unload hst
  | mark_up pid props now => exact hA.keep_mark_up hp hst hc
  | down d now => exact hA.keep_down hp hst hc
  | exit pid reason =>
    have hi := inv_step hA.inv hst
    simp only [step, Option.ite_none_right_eq_some, Option.some.injEq] at hst
    obtain ⟨hx, rfl⟩ := hst
    have hst' : step host t (.exit pid reason) = some { t with otp := t.otp.exit pid reason } := by
      rw [step, if_pos ((hmem hc).mp hx)]
    exact ⟨_, hst', hi, inv_step hA.inv' hst', hA.slot, hA.intent, hA.events, hA.launched, hA.otp.exit⟩
  | bind pid =>
    have hi := inv_step hA.inv hst
    simp only [step, Option.ite_none_right_eq_some, Option.some.injEq] at hst
    obtain ⟨hx, rfl⟩ := hst
    have hst' : step host t (.bind pid) = some { t with listening := insert pid t.listening } := by
      rw [step, if_pos ((hmem hc).mp hx)]
    exact ⟨_, hst', hi, inv_step hA.inv' hst', hA.slot, hA.intent, hA.events, hA.launched, hA.otp⟩
  | release pid =>
    have hi := inv_step hA.inv hst
    cases hst
    have hst' : step host t (.release pid) = some { t with listening := t.listening.erase pid } := rfl
    exact ⟨_, hst', hi, inv_step hA.inv' hst', hA.slot, hA.intent, hA.events, hA.launched, hA.otp⟩

theorem alike_init (host : Host) (p : Port) : Alike host p (init host) (init host) := by
  refine ⟨inv_init host, inv_init host, rfl, Iff.rfl, rfl, rfl, ?_⟩
  exact ⟨fun _ _ => Iff.rfl, fun _ _ => Iff.rfl, fun _ _ => Iff.rfl⟩

end

/-! ## Two runs -/

/-- The run `h'` to `s'` is what is left of `h` to `s` without the inputs about other
ports: its inputs are those about `p`, each handled with the same slot and after
the same events of the port, the run ends with the same, and the deleted inputs
touched neither. -/
structure Isolated (host : Host) (p : Port) (h : History) (s : Sys) (h' : History) (s' : Sys) : Prop where
  inputs : h'.map Prod.snd = (h.filter fun x => concerns p x.1 x.2).map Prod.snd
  states : h'.map (fun x => x.1.slots.lookup p) = (h.filter fun x => concerns p x.1 x.2).map fun x => x.1.slots.lookup p
  events : h'.map (fun x => x.1.events) = (h.filter fun x => concerns p x.1 x.2).map fun x => sent p x.1.events
  last_state : s'.slots.lookup p = s.slots.lookup p
  last_events : s'.events = sent p s.events
  deleted : ∀ h₁ s₁ i h₂ s₂, h = h₁ ++ (s₁, i) :: h₂ → step host s₁ i = some s₂ → concerns p s₁ i = false →
    s₂.slots.lookup p = s₁.slots.lookup p ∧ sent p s₂.events = sent p s₁.events

theorem forall₂_map_eq {α β γ : Type} {R : α → β → Prop} {f : α → γ} {g : β → γ} (hfg : ∀ a b, R a b → g b = f a)
    {l : List α} {l' : List β} (h : List.Forall₂ R l l') : l'.map g = l.map f := by
  induction h with
  | nil => rfl
  | cons hab _ ih => rw [List.map_cons, List.map_cons, hfg _ _ hab, ih]

/-- **Isolation of slots.** Deleting from a run every input about other ports leaves
a run, in which the slot of the port goes through the same states and its events
are the same. -/
theorem slots_isolated {host : Host} {p : Port} {h : History} {s : Sys} (hp : p ∈ host.slots) (hr : Run host h s) :
    ∃ h' s', Run host h' s' ∧ Isolated host p h s h' s' := by
  have hkeep : ∀ s t i s', Alike host p s t → concerns p s i = true → step host s i = some s' →
      ∃ t', step host t i = some t' ∧ Alike host p s' t' := fun s t i s' hA hc hst => hA.keep hp hst hc
  have hdrop : ∀ s t i s', Alike host p s t → concerns p s i = false → step host s i = some s' → Alike host p s' t :=
    fun s t i s' hA hc hst => hA.drop hp hst hc
  obtain ⟨h', s', hr', hA, hf⟩ :=
    Machine.Run.filter (Alike host p) (fun x => concerns p x.1 x.2) (alike_init host p) hkeep hdrop hr
  refine ⟨h', s', hr', ?_, ?_, ?_, hA.slot, hA.events, ?_⟩
  · exact forall₂_map_eq (fun _ _ h => h.2.symm) hf
  · exact forall₂_map_eq (fun _ _ h => h.1.slot) hf
  · exact forall₂_map_eq (fun _ _ h => h.1.events) hf
  · intro h₁ s₁ i h₂ s₂ he hst hc
    have hi := run_inv (Machine.Run.split hr he).1
    obtain ⟨slot, hl⟩ := Option.isSome_iff_exists.mp (AList.lookup_isSome.mpr ((hi.keys p).mpr hp))
    rw [hl]
    exact untouched_of_not_concerns hi hst hl hc

def two_slots : Host := { one_slot with slots := [8081, 8082] }

/-- The engine of the other port is unloaded while the one of port 8081 comes up. -/
theorem slots_isolated_two : ∃ h s h' s', Run two_slots h s ∧ Run two_slots h' s' ∧
    h.map Prod.snd = [load_ok model_a 0,
      .load { model := model_b, port := 8082, profile := ∅, start := .ok 1 1 none },
      .unload 8082 false, .mark_up 0 {} 0, .down ⟨1, 1, .shutdown⟩ 0] ∧
    8081 ∈ two_slots.slots ∧ Isolated two_slots 8081 h s h' s' := by
  have he : ∃ s, Machine.exec (step two_slots) (init two_slots) [load_ok model_a 0,
      .load { model := model_b, port := 8082, profile := ∅, start := .ok 1 1 none },
      .unload 8082 false, .mark_up 0 {} 0, .down ⟨1, 1, .shutdown⟩ 0] = some s := ⟨_, rfl⟩
  obtain ⟨s, he⟩ := he
  have hp : 8081 ∈ two_slots.slots := by simp [two_slots]
  obtain ⟨h', s', hr', hI⟩ := slots_isolated hp (.of_exec he)
  exact ⟨_, s, h', s', .of_exec he, hr', rfl, hp, hI⟩

end AiroAgent.Fleet
