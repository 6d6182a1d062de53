import AiroAgent.FleetInv

/-!
# What happened to the engine in a slot

The state keeps an intent for each port and a status for each slot; the history
of a run tells what was asked of each engine. `step_resident` says what one step
does to an engine that is in a slot after it: the step started it, or it was
there before and at most its intent and its status moved. `run_story` follows
an engine through its run.
-/

namespace AiroAgent.Fleet

/-- The input is an unload that Fleet accepts while the engine `pid` is in the slot. -/
def Unloads (s : Sys) (i : Input) (pid : Pid) : Prop :=
  ∃ port slot, i = .unload port false ∧ s.slots.lookup port = some slot ∧ slot.pid = some pid

def MarksUp (i : Input) (pid : Pid) : Prop := ∃ props now, i = .mark_up pid props now

def Starts (s : Sys) (i : Input) (port : Port) (pid : Pid) : Prop :=
  ∃ c slot ref early, i = .load c ∧ c.port = port ∧ Launches s c slot ∧ c.start = .ok pid ref early

def Unloaded (h : History) (pid : Pid) : Prop := ∃ x ∈ h, Unloads x.1 x.2 pid

def MarkedUp (h : History) (pid : Pid) : Prop := ∃ x ∈ h, MarksUp x.2 pid

/-- The engine was started while its port still had the intent of an earlier unload. -/
def StartedUnderIntent (h : History) (pid : Pid) : Prop :=
  ∃ x ∈ h, ∃ port, Starts x.1 x.2 port pid ∧ port ∈ x.1.intent

theorem exists_mem_snoc {α : Type} {h : List α} {x : α} {P : α → Prop} :
    (∃ y ∈ h ++ [x], P y) ↔ (∃ y ∈ h, P y) ∨ P x := by
  constructor
  · intro hx
    obtain ⟨y, hy, hP⟩ := hx
    rcases List.mem_append.mp hy with hy | hy
    · exact .inl ⟨y, hy, hP⟩
    · rw [List.mem_singleton] at hy; subst hy; exact .inr hP
  · intro hx
    rcases hx with ⟨y, hy, hP⟩ | hP
    · exact ⟨y, List.mem_append_left _ hy, hP⟩
    · exact ⟨x, by simp, hP⟩

theorem unloaded_snoc {h : History} {s : Sys} {i : Input} {pid : Pid} :
    Unloaded (h ++ [(s, i)]) pid ↔ Unloaded h pid ∨ Unloads s i pid := exists_mem_snoc

theorem markedUp_snoc {h : History} {s : Sys} {i : Input} {pid : Pid} :
    MarkedUp (h ++ [(s, i)]) pid ↔ MarkedUp h pid ∨ MarksUp i pid := exists_mem_snoc

theorem startedUnderIntent_snoc {h : History} {s : Sys} {i : Input} {pid : Pid} :
    StartedUnderIntent (h ++ [(s, i)]) pid ↔
      StartedUnderIntent h pid ∨ ∃ port, Starts s i port pid ∧ port ∈ s.intent := exists_mem_snoc

/-! ## One step, seen from an engine in a slot -/

/-- The engine `pid` was in slot `p` before the step, and only its own unload and
its own `mark_up` reach it. -/
structure Stays (s : Sys) (i : Input) (s' : Sys) (p : Port) (slot' : Slot) (pid : Pid) : Prop where
  before : ∃ slot, s.slots.lookup p = some slot ∧ slot.pid = some pid ∧ slot'.model = slot.model ∧
    slot'.profile = slot.profile ∧ (slot'.status = .up ↔ slot.status = .up ∨ MarksUp i pid)
  intent : p ∈ s'.intent ↔ p ∈ s.intent ∨ Unloads s i pid
  terminated : pid ∈ s'.otp.terminated ↔ pid ∈ s.otp.terminated ∨ Unloads s i pid
  not_started : ∀ q, ¬ Starts s i q pid

structure Begins (s : Sys) (i : Input) (s' : Sys) (p : Port) (slot' : Slot) (pid : Pid) : Prop where
  starts : Starts s i p pid
  slot : ∃ c ref, i = .load c ∧ slot' = started c pid ref
  intent : s'.intent = s.intent
  terminated : pid ∈ s'.otp.terminated → pid ∈ s.otp.terminated
  fresh : pid ∉ pids s.launched

section
variable {host : Host} {s s' : Sys} {p q : Port} {slot slot' : Slot} {pid : Pid} {i : Input}

theorem Starts.fresh (hst : step host s i = some s') (h : Starts s i p pid) : pid ∉ pids s.launched := by
  obtain ⟨c, slot, ref, early, rfl, -, -, hs⟩ := h
  simp only [step, Option.ite_none_right_eq_some, hs] at hst
  intro hx
  obtain ⟨l, hl, e⟩ := hx
  exact (fresh_ok hst.1 l hl).1 e

theorem Inv.mem_pids (hi : Inv host s) (hl : s.slots.lookup p = some slot) (hp : slot.pid = some pid) :
    pid ∈ pids s.launched := by
  obtain ⟨ref, hR⟩ := hi.resident hl hp
  exact ⟨_, hR.launched, rfl⟩

theorem Inv.not_starts (hi : Inv host s) (hst : step host s i = some s') (hl : s.slots.lookup p = some slot)
    (hp : slot.pid = some pid) (q : Port) : ¬ Starts s i q pid :=
  fun h => h.fresh hst (hi.mem_pids hl hp)

theorem Stays.of_same (hi : Inv host s) (hst : step host s i = some s') (hl : s.slots.lookup p = some slot)
    (hp : slot.pid = some pid) (hu : ¬ Unloads s i pid) (hm : MarksUp i pid → slot.status = .up)
    (hin : p ∈ s'.intent ↔ p ∈ s.intent) (ht : pid ∈ s'.otp.terminated ↔ pid ∈ s.otp.terminated) :
    Stays s i s' p slot pid where
  before := ⟨slot, hl, hp, rfl, rfl, by
    constructor
    · exact .inl
    · intro hx
      rcases hx with h | h
      · exact h
      · exact hm h⟩
  intent := by rw [hin]; simp [hu]
  terminated := by rw [ht]; simp [hu]
  not_started := hi.not_starts hst hl hp

theorem unloads_iff {port : Port} {pid₀ : Pid} (hl : s.slots.lookup port = some slot) (hp : slot.pid = some pid₀) :
    Unloads s (.unload port false) pid ↔ pid = pid₀ := by
  constructor
  · intro hx
    obtain ⟨_, _, e, hl', hp'⟩ := hx
    cases e
    rw [hl] at hl'; cases hl'
    rw [hp] at hp'; cases hp'; rfl
  · intro he
    subst he
    exact ⟨port, slot, rfl, hl, hp⟩

theorem Inv.pid_eq_iff (hi : Inv host s) {pid₀ : Pid} (hl : s.slots.lookup p = some slot)
    (hl' : s.slots.lookup q = some slot') (hp : slot.pid = some pid) (hp' : slot'.pid = some pid₀) :
    pid = pid₀ ↔ p = q := by
  constructor
  · intro he
    subst he
    exact hi.pid_inj hl hl' hp hp'
  · intro he
    subst he
    rw [hl] at hl'; cases hl'
    rw [hp] at hp'; cases hp'; rfl

def quiet : Input → Bool
  | .unload _ _ | .mark_up _ _ _ => false
  | _ => true

theorem Stays.of_quiet (hi : Inv host s) (hst : step host s i = some s') (hq : quiet i = true)
    (hl : s.slots.lookup p = some slot) (hp : slot.pid = some pid) (hin : p ∈ s'.intent ↔ p ∈ s.intent)
    (ht : pid ∈ s'.otp.terminated ↔ pid ∈ s.otp.terminated) : Stays s i s' p slot pid := by
  refine .of_same hi hst hl hp ?_ ?_ hin ht
  · intro h
    obtain ⟨_, _, rfl, -⟩ := h
    cases hq
  · intro h
    obtain ⟨_, _, rfl⟩ := h
    cases hq

theorem Inv.mem_room_terminated_other (hi : Inv host s) (hl : s.slots.lookup p = some slot)
    (hl' : s.slots.lookup q = some slot') (hne : q ≠ p) (hp' : slot'.pid = some pid) :
    pid ∈ (room slot s.otp).terminated ↔ pid ∈ s.otp.terminated := by
  rcases hi.slot p slot hl with rfl | ⟨pid₀, ref₀, h₀⟩
  · exact Iff.rfl
  · have hn : pid ≠ pid₀ := by
      intro e
      subst e
      exact hne (hi.pid_inj hl' hl hp' h₀.pid_eq)
    rw [mem_room_terminated h₀.pid_eq h₀.ref_eq]
    exact ⟨fun h => h.resolve_left hn, .inr⟩

theorem Inv.terminated_room (hi : Inv host s) (hl : s.slots.lookup p = some slot) (hn : pid ∉ pids s.launched)
    (h : pid ∈ (room slot s.otp).terminated) : pid ∈ s.otp.terminated := by
  rcases hi.slot p slot hl with rfl | ⟨pid₀, ref₀, h₀⟩
  · exact h
  · refine ((mem_room_terminated h₀.pid_eq h₀.ref_eq).mp h).resolve_left ?_
    intro e
    subst e
    exact hn ⟨_, h₀.launched, rfl⟩

theorem not_unloads_mark_up {props : Props} {now : Time} {pid₀ : Pid} : ¬ Unloads s (.mark_up pid₀ props now) pid := by
  intro hx
  obtain ⟨_, _, e, -⟩ := hx
  cases e

theorem step_resident (hi : Inv host s) (hst : step host s i = some s') (hl : s'.slots.lookup p = some slot')
    (hp : slot'.pid = some pid) : Stays s i s' p slot' pid ∨ Begins s i s' p slot' pid := by
  cases step_trans hst with
  | load_noop =>
    exact .inl (.of_quiet hi hst rfl hl hp Iff.rfl Iff.rfl)
  | @load_start c slot pid' ref early l hL hs hf =>
    rcases lookup_insert_cases hl with ⟨rfl, rfl⟩ | ⟨hne, hl⟩
    · cases hp
      have hS : Starts s (.load c) c.port pid := ⟨c, slot, ref, early, rfl, rfl, hL, hs⟩
      refine .inr ⟨hS, ⟨c, ref, rfl, rfl⟩, rfl, fun h => ?_, hS.fresh hst⟩
      rw [start_world_terminated] at h
      exact hi.terminated_room hL.found (hS.fresh hst) h
    · refine .inl (.of_quiet hi hst rfl hl hp Iff.rfl ?_)
      rw [start_world_terminated]
      exact hi.mem_room_terminated_other hL.found hl hne hp
  | @load_fail c slot reason l hL hs =>
    rcases lookup_insert_cases hl with ⟨rfl, rfl⟩ | ⟨hne, hl⟩
    · cases hp
    · exact .inl (.of_quiet hi hst rfl hl hp Iff.rfl (hi.mem_room_terminated_other hL.found hl hne hp))
  | unload_noop hn =>
    refine .inl (.of_same hi hst hl hp ?_ ?_ Iff.rfl Iff.rfl)
    · intro hx
      obtain ⟨_, _, e, hl', hp'⟩ := hx
      cases e
      rcases hn with e | hn
      · cases e
      · rw [hn _ hl'] at hp'; cases hp'
    · intro hx
      obtain ⟨_, _, e⟩ := hx
      cases e
  | @unload port slot₀ pid₀ hl₀ hp₀ =>
    have hu : Unloads s (.unload port false) pid ↔ pid = pid₀ := unloads_iff hl₀ hp₀
    have hpp : pid = pid₀ ↔ p = port := hi.pid_eq_iff hl hl₀ hp hp₀
    refine .inl ⟨⟨slot', hl, hp, rfl, rfl, ?_⟩, ?_, ?_, hi.not_starts hst hl hp⟩
    · constructor
      · exact .inl
      · intro hx
        rcases hx with h | ⟨_, _, e⟩
        · exact h
        · cases e
    · rw [hu, hpp, Finset.mem_insert]; exact or_comm
    · rw [hu, Otp.World.terminated_terminate_child, Finset.mem_insert]; exact or_comm
  | @mark_up_noop pid₀ props now _ hn =>
    refine .inl (.of_same hi hst hl hp not_unloads_mark_up (fun hx => ?_) Iff.rfl Iff.rfl)
    obtain ⟨_, _, e⟩ := hx
    cases e
    -- the slot found is this one, and it is neither loading nor empty
    have hne : slot'.status ≠ .loading := hn _ (hi.find_by_pid_eq hl hp)
    obtain ⟨ref, hR⟩ := hi.resident hl hp
    cases hs : slot'.status with
    | empty => exact absurd hs hR.status
    | loading => exact absurd hs hne
    | up => rfl
  | @mark_up pid₀ props now port slot₀ hk hf hs =>
    obtain ⟨hl₀, hp₀⟩ := find_by_pid_some hf
    have hu : ∀ q, ¬ Unloads s (.mark_up pid₀ props now) q := fun _ => not_unloads_mark_up
    rcases lookup_insert_cases hl with ⟨rfl, rfl⟩ | ⟨hne, hl⟩
    · have e : pid₀ = pid := Option.some.inj (hp₀.symm.trans hp)
      subst e
      refine .inl ⟨⟨slot₀, hl₀, hp₀, rfl, rfl, ?_⟩, by simp [hu], by simp [hu], hi.not_starts hst hl₀ hp₀⟩
      exact ⟨fun _ => .inr ⟨props, now, rfl⟩, fun _ => rfl⟩
    · refine .inl (.of_same hi hst hl hp (hu pid) ?_ Iff.rfl Iff.rfl)
      intro hx
      obtain ⟨_, _, e⟩ := hx
      cases e
      exact absurd (hi.pid_inj hl hl₀ hp hp₀) hne
  | down_noop hd hf =>
    exact .inl (.of_quiet hi hst rfl hl hp Iff.rfl Iff.rfl)
  | @down d now port slot₀ hd hf =>
    rcases lookup_insert_cases hl with ⟨rfl, rfl⟩ | ⟨hne, hl⟩
    · cases hp
    · refine .inl (.of_quiet hi hst rfl hl hp ?_ Iff.rfl)
      rw [Finset.mem_erase]; exact and_iff_right hne
  | exit =>
    exact .inl (.of_quiet hi hst rfl hl hp Iff.rfl Iff.rfl)
  | bind =>
    exact .inl (.of_quiet hi hst rfl hl hp Iff.rfl Iff.rfl)
  | release =>
    exact .inl (.of_quiet hi hst rfl hl hp Iff.rfl Iff.rfl)

/-! ## Runs -/

theorem step_launched (hst : step host s i = some s') : ∀ l ∈ s.launched, l ∈ s'.launched := by
  intro l hl
  cases step_trans hst with
  | load_start => exact List.mem_append_left _ hl
  | _ => exact hl

theorem step_pids (hst : step host s i = some s') {x : Pid} (h : x ∈ pids s.launched) : x ∈ pids s'.launched := by
  obtain ⟨l, hl, e⟩ := h
  exact ⟨l, step_launched hst l hl, e⟩

theorem Inv.terminated_room_resident (hi : Inv host s) (hl : s.slots.lookup p = some slot)
    (h : pid ∈ (room slot s.otp).terminated) : pid ∈ s.otp.terminated ∨ pid ∈ pids s.launched := by
  by_cases hn : pid ∈ pids s.launched
  · exact .inr hn
  · exact .inl (hi.terminated_room hl hn h)

theorem step_terminated (hi : Inv host s) (hst : step host s i = some s') (h : pid ∈ s'.otp.terminated) :
    pid ∈ s.otp.terminated ∨ pid ∈ pids s.launched := by
  cases step_trans hst with
  | load_start l hL hs hf =>
    rw [start_world_terminated] at h
    exact hi.terminated_room_resident hL.found h
  | load_fail l hL hs => exact hi.terminated_room_resident hL.found h
  | unload hl hp =>
    rw [Otp.World.terminated_terminate_child] at h
    rcases Finset.mem_insert.mp h with rfl | h
    · exact .inr (hi.mem_pids hl hp)
    · exact .inl h
  | _ => exact .inl h

theorem Starts.mem_pids (hst : step host s i = some s') (h : Starts s i p pid) : pid ∈ pids s'.launched := by
  obtain ⟨c, slot, ref, early, rfl, -, hL, hs⟩ := h
  cases step_trans hst with
  | load_noop hn => exact absurd hL (hn slot)
  | load_start l hL' hs' hf =>
    rw [hs] at hs'; cases hs'
    exact ⟨⟨c.port, pid, ref⟩, by simp, rfl⟩
  | load_fail l hL' hs' => rw [hs] at hs'; cases hs'

theorem run_mentions {E : Sys → Input → Prop}
    (hE : ∀ s i s', Inv host s → step host s i = some s' → E s i → pid ∈ pids s'.launched) {h : History}
    (hr : Run host h s) (hx : ∃ x ∈ h, E x.1 x.2) : pid ∈ pids s.launched := by
  induction hr with
  | nil => obtain ⟨x, hx, -⟩ := hx; cases hx
  | @snoc h s i s' hr hst ih =>
    rcases exists_mem_snoc.mp hx with hx | hx
    · exact step_pids hst (ih hx)
    · exact hE s i s' (run_inv hr) hst hx

structure Known (h : History) (s : Sys) : Prop where
  unloaded : ∀ pid, Unloaded h pid → pid ∈ pids s.launched
  marked : ∀ pid, MarkedUp h pid → pid ∈ pids s.launched
  under : ∀ pid, StartedUnderIntent h pid → pid ∈ pids s.launched
  terminated : ∀ pid ∈ s.otp.terminated, pid ∈ pids s.launched

theorem Unloads.mem_pids (hi : Inv host s) (hst : step host s i = some s') (h : Unloads s i pid) :
    pid ∈ pids s'.launched := by
  obtain ⟨port, slot, -, hl, hp⟩ := h
  exact step_pids hst (hi.mem_pids hl hp)

theorem MarksUp.mem_pids (hst : step host s i = some s') (h : MarksUp i pid) : pid ∈ pids s'.launched := by
  obtain ⟨props, now, rfl⟩ := h
  cases step_trans hst with
  | mark_up_noop hk => exact hk
  | mark_up hk => exact hk

theorem run_terminated {h : History} (hr : Run host h s) : ∀ pid ∈ s.otp.terminated, pid ∈ pids s.launched := by
  induction hr with
  | nil => intro pid hp; cases hp
  | @snoc h s i s' hr hst ih =>
    intro pid ht
    rcases step_terminated (run_inv hr) hst ht with ht | ht
    · exact step_pids hst (ih pid ht)
    · exact step_pids hst ht

theorem run_known {h : History} (hr : Run host h s) : Known h s where
  unloaded pid := run_mentions (E := fun s i => Unloads s i pid) (fun _ _ _ hi hst hu => hu.mem_pids hi hst) hr
  marked pid := run_mentions (E := fun _ i => MarksUp i pid) (fun _ _ _ _ hst hm => hm.mem_pids hst) hr
  under pid := run_mentions (E := fun s i => ∃ port, Starts s i port pid ∧ port ∈ s.intent)
    (fun _ _ _ _ hst ⟨_, hS, _⟩ => hS.mem_pids hst) hr
  terminated := run_terminated hr

/-- What the intent, the status and the terminations say of the engine in a slot. -/
structure Story (h : History) (s : Sys) (p : Port) (slot : Slot) (pid : Pid) : Prop where
  intent : p ∈ s.intent ↔ Unloaded h pid ∨ StartedUnderIntent h pid
  up : slot.status = .up ↔ MarkedUp h pid
  terminated : pid ∈ s.otp.terminated ↔ Unloaded h pid

theorem story_stays {h : History} (hS : Stays s i s' p slot' pid)
    (ih : ∀ slot, s.slots.lookup p = some slot → slot.pid = some pid → Story h s p slot pid) :
    Story (h ++ [(s, i)]) s' p slot' pid := by
  obtain ⟨slot, hl, hp, -, -, hup⟩ := hS.before
  have ih := ih slot hl hp
  refine ⟨?_, ?_, ?_⟩
  · have hn : ¬ ∃ port, Starts s i port pid ∧ port ∈ s.intent := fun ⟨q, hq, _⟩ => hS.not_started q hq
    rw [hS.intent, ih.intent, unloaded_snoc, startedUnderIntent_snoc]
    simp only [hn, or_false]
    exact or_right_comm
  · rw [hup, ih.up, markedUp_snoc]
  · rw [hS.terminated, ih.terminated, unloaded_snoc]

theorem story_begins {h : History} (hk : Known h s) (hB : Begins s i s' p slot' pid) :
    Story (h ++ [(s, i)]) s' p slot' pid := by
  obtain ⟨c, ref, rfl, rfl⟩ := hB.slot
  have hnu : ¬ Unloaded (h ++ [(s, .load c)]) pid := by
    intro hu
    rcases unloaded_snoc.mp hu with hu | ⟨_, _, e, -⟩
    · exact hB.fresh (hk.unloaded pid hu)
    · cases e
  have hnm : ¬ MarkedUp (h ++ [(s, .load c)]) pid := by
    intro hm
    rcases markedUp_snoc.mp hm with hm | ⟨_, _, e⟩
    · exact hB.fresh (hk.marked pid hm)
    · cases e
  refine ⟨?_, ?_, ?_⟩
  · rw [hB.intent]
    constructor
    · exact fun hp => .inr (startedUnderIntent_snoc.mpr (.inr ⟨p, hB.starts, hp⟩))
    · intro hx
      rcases hx with hu | hu
      · exact absurd hu hnu
      · rcases startedUnderIntent_snoc.mp hu with hu | ⟨q, ⟨c', _, _, _, e, hq, _⟩, hin⟩
        · exact absurd (hk.under pid hu) hB.fresh
        · obtain ⟨c'', _, _, _, e', hp, _⟩ := hB.starts
          cases e; cases e'
          rw [← hp, hq]; exact hin
  · simp [hnm, started]
  · simp only [hnu, iff_false]
    exact fun ht => hB.fresh (hk.terminated pid (hB.terminated ht))

theorem run_story {h : History} (hr : Run host h s) : ∀ p slot pid, s.slots.lookup p = some slot →
    slot.pid = some pid → Story h s p slot pid := by
  induction hr with
  | nil =>
    intro p slot pid hl hp
    rcases (inv_init host).slot p slot hl with rfl | ⟨pid', ref, hR⟩
    · cases hp
    · exact absurd hR.launched (by simp [init])
  | @snoc h s i s' hr hst ih =>
    intro p slot pid hl hp
    rcases step_resident (run_inv hr) hst hl hp with hS | hB
    · exact story_stays hS fun slot => ih p slot pid
    · exact story_begins (run_known hr) hB

end

end AiroAgent.Fleet
