import AiroAgent.FleetStep

/-!
# The invariant of Fleet's table

Every slot is either the empty slot of its port, or holds one launched engine
whose monitor is still owed to Fleet. Pids and refs are launched once, so a pid
or a ref names at most one slot, and every live child is the pid of some slot.
The pending `:DOWN` messages are part of the invariant through `Tracks`: they
are what a slot with a dead engine is waiting for.
-/

namespace AiroAgent.Fleet

/-! ## The table -/

theorem mem_entries_iff {slots : Slots} {e : Sigma fun _ : Port => Slot} :
    e ∈ slots.entries ↔ slots.lookup e.1 = some e.2 :=
  AList.mem_lookup_iff.symm

theorem find_by_pid_some {slots : Slots} {pid : Pid} {e : Sigma fun _ : Port => Slot}
    (h : find_by_pid slots pid = some e) : slots.lookup e.1 = some e.2 ∧ e.2.pid = some pid :=
  ⟨mem_entries_iff.mp (List.mem_of_find?_eq_some h), by simpa using List.find?_some h⟩

theorem find_by_ref_some {slots : Slots} {ref : Ref} {e : Sigma fun _ : Port => Slot}
    (h : find_by_ref slots ref = some e) : slots.lookup e.1 = some e.2 ∧ e.2.ref = some ref :=
  ⟨mem_entries_iff.mp (List.mem_of_find?_eq_some h), by simpa using List.find?_some h⟩

theorem find_by_pid_none {slots : Slots} {pid : Pid} (h : find_by_pid slots pid = none) {p : Port} {slot : Slot}
    (hl : slots.lookup p = some slot) : slot.pid ≠ some pid := by
  have := List.find?_eq_none.mp h ⟨p, slot⟩ (mem_entries_iff.mpr hl)
  simpa using this

theorem find_by_ref_none {slots : Slots} {ref : Ref} (h : find_by_ref slots ref = none) {p : Port} {slot : Slot}
    (hl : slots.lookup p = some slot) : slot.ref ≠ some ref := by
  have := List.find?_eq_none.mp h ⟨p, slot⟩ (mem_entries_iff.mpr hl)
  simpa using this

theorem lookup_insert_cases {slots : Slots} {p q : Port} {new slot : Slot}
    (h : (slots.insert p new).lookup q = some slot) : (q = p ∧ slot = new) ∨ (q ≠ p ∧ slots.lookup q = some slot) := by
  by_cases hq : q = p
  · subst hq
    rw [AList.lookup_insert] at h
    exact .inl ⟨rfl, (Option.some.inj h).symm⟩
  · rw [AList.lookup_insert_ne hq] at h
    exact .inr ⟨hq, h⟩

/-! ## Launches -/

def pids (launched : List Launch) : Set Pid := {x | ∃ l ∈ launched, l.pid = x}

def monitored (launched : List Launch) : Set (Ref × Pid) := {k | ∃ l ∈ launched, (l.ref, l.pid) = k}

theorem values_append {κ : Type} (f : Launch → κ) (launched : List Launch) (l : Launch) :
    {x | ∃ k ∈ launched ++ [l], f k = x} = insert (f l) {x | ∃ k ∈ launched, f k = x} := by
  ext x
  simp only [List.mem_append, List.mem_singleton, Set.mem_ofPred_eq, Set.mem_insert_iff]
  constructor
  · intro h
    obtain ⟨k, hk | rfl, rfl⟩ := h
    · exact .inr ⟨k, hk, rfl⟩
    · exact .inl rfl
  · intro h
    rcases h with rfl | ⟨k, hk, rfl⟩
    · exact ⟨l, .inr rfl, rfl⟩
    · exact ⟨k, .inl hk, rfl⟩

theorem pids_append (launched : List Launch) (l : Launch) : pids (launched ++ [l]) = insert l.pid (pids launched) :=
  values_append (·.pid) launched l

theorem monitored_append (launched : List Launch) (l : Launch) :
    monitored (launched ++ [l]) = insert (l.ref, l.pid) (monitored launched) :=
  values_append (fun k => (k.ref, k.pid)) launched l

theorem fresh_ok {launched : List Launch} {pid : Pid} {ref : Ref} {early : Option Reason}
    (h : fresh launched (.ok pid ref early) = true) : ∀ l ∈ launched, l.pid ≠ pid ∧ l.ref ≠ ref := by
  intro l hl
  have := List.all_eq_true.mp h l hl
  simpa using this

/-! ## The world of the engines -/

section
variable {w : Otp.World Pid Ref Reason} {P : Set Pid} {K : Set (Ref × Pid)} {pid : Pid} {ref : Ref}
  {early : Option Reason} {slot : Slot}

theorem start_world_good (h : w.Good P K) (hf : pid ∉ P) :
    (start_world pid ref early w).Good (insert pid P) (insert (ref, pid) K) := by
  cases early with
  | none => exact (h.start_child hf).monitor (Set.mem_insert _ _)
  | some reason =>
    have he : ((w.start_child pid).exit pid reason).Good (insert pid P) K := (h.start_child hf).exit
    exact he.monitor (Set.mem_insert _ _)

theorem start_world_tracks {r : Ref} {q : Pid} :
    (start_world pid ref early w).Tracks r q ↔ w.Tracks r q ∨ (r = ref ∧ q = pid) := by
  cases early with
  | none =>
    rw [start_world, Otp.World.tracks_monitor, Otp.World.tracks_start_child]
  | some reason =>
    rw [start_world, Otp.World.tracks_monitor, Otp.World.tracks_exit, Otp.World.tracks_start_child]

theorem start_world_children {q : Pid} (h : q ∈ (start_world pid ref early w).children) : q = pid ∨ q ∈ w.children := by
  cases early with
  | none => simpa [start_world] using h
  | some reason =>
    simp only [start_world, Otp.World.children_monitor, Otp.World.children_exit, Otp.World.children_start_child] at h
    exact Finset.mem_insert.mp (Finset.mem_of_mem_erase h)

theorem room_good (h : w.Good P K) : (room slot w).Good P K := by
  unfold room
  split
  · exact h.demonitor_flush.terminate_child
  · exact h

theorem room_running (hp : slot.pid = some pid) (hr : slot.ref = some ref) :
    room slot w = (w.demonitor_flush ref).terminate_child pid .shutdown := by
  unfold room; rw [hp, hr]

theorem room_tracks (hp : slot.pid = some pid) (hr : slot.ref = some ref) {r : Ref} {q : Pid} :
    (room slot w).Tracks r q ↔ w.Tracks r q ∧ r ≠ ref := by
  rw [room_running hp hr, Otp.World.tracks_terminate_child, Otp.World.tracks_demonitor_flush]

theorem room_children (hp : slot.pid = some pid) (hr : slot.ref = some ref) :
    (room slot w).children = w.children.erase pid := by
  rw [room_running hp hr]; simp

theorem start_world_terminated : (start_world pid ref early w).terminated = w.terminated := by
  cases early <;> simp [start_world]

theorem mem_room_terminated (hp : slot.pid = some pid) (hr : slot.ref = some ref) {q : Pid} :
    q ∈ (room slot w).terminated ↔ q = pid ∨ q ∈ w.terminated := by
  rw [room_running hp hr]; simp

end

/-! ## The invariant -/

/-- `slot` of port `p` holds the engine `pid`, monitored through `ref`. -/
structure Resident (s : Sys) (p : Port) (slot : Slot) (pid : Pid) (ref : Ref) : Prop where
  port_eq : slot.port = p
  status : slot.status ≠ .empty
  model : ∃ m, slot.model = some m
  pid_eq : slot.pid = some pid
  ref_eq : slot.ref = some ref
  launched : ⟨p, pid, ref⟩ ∈ s.launched
  tracked : s.otp.Tracks ref pid

def SlotOk (s : Sys) (p : Port) (slot : Slot) : Prop :=
  slot = empty_slot p ∨ ∃ pid ref, Resident s p slot pid ref

structure Inv (host : Host) (s : Sys) : Prop where
  keys : ∀ p, p ∈ s.slots ↔ p ∈ host.slots
  slot : ∀ p slot, s.slots.lookup p = some slot → SlotOk s p slot
  pids_nodup : (s.launched.map (·.pid)).Nodup
  refs_nodup : (s.launched.map (·.ref)).Nodup
  good : s.otp.Good (pids s.launched) (monitored s.launched)
  owned : ∀ pid ∈ s.otp.children, ∃ p slot, s.slots.lookup p = some slot ∧ slot.pid = some pid

theorem Resident.mono {s s' : Sys} {p : Port} {slot : Slot} {pid : Pid} {ref : Ref} (h : Resident s p slot pid ref)
    (hl : ∀ l ∈ s.launched, l ∈ s'.launched) (ht : s.otp.Tracks ref pid → s'.otp.Tracks ref pid) :
    Resident s' p slot pid ref :=
  { h with launched := hl _ h.launched, tracked := ht h.tracked }

theorem SlotOk.mono {s s' : Sys} {p : Port} {slot : Slot} (h : SlotOk s p slot)
    (hl : ∀ l ∈ s.launched, l ∈ s'.launched)
    (ht : ∀ pid ref, Resident s p slot pid ref → s.otp.Tracks ref pid → s'.otp.Tracks ref pid) : SlotOk s' p slot := by
  rcases h with rfl | ⟨pid, ref, h⟩
  · exact .inl rfl
  · exact .inr ⟨pid, ref, h.mono hl (ht pid ref h)⟩

section
variable {host : Host} {s s' : Sys} {p q : Port} {slot slot' : Slot} {pid : Pid} {ref : Ref}

theorem Inv.resident (hi : Inv host s) (hl : s.slots.lookup p = some slot) (hp : slot.pid = some pid) :
    ∃ ref, Resident s p slot pid ref := by
  rcases hi.slot p slot hl with rfl | ⟨pid', ref, h⟩
  · cases hp
  · rw [h.pid_eq] at hp; cases hp; exact ⟨ref, h⟩

theorem Inv.resident_ref (hi : Inv host s) (hl : s.slots.lookup p = some slot) (hr : slot.ref = some ref) :
    ∃ pid, Resident s p slot pid ref := by
  rcases hi.slot p slot hl with rfl | ⟨pid, ref', h⟩
  · cases hr
  · rw [h.ref_eq] at hr; cases hr; exact ⟨pid, h⟩

theorem Inv.launch_eq_of_pid (hi : Inv host s) {l l' : Launch} (h : l ∈ s.launched) (h' : l' ∈ s.launched)
    (e : l.pid = l'.pid) : l = l' :=
  List.inj_on_of_nodup_map hi.pids_nodup h h' e

theorem Inv.launch_eq_of_ref (hi : Inv host s) {l l' : Launch} (h : l ∈ s.launched) (h' : l' ∈ s.launched)
    (e : l.ref = l'.ref) : l = l' :=
  List.inj_on_of_nodup_map hi.refs_nodup h h' e

theorem Inv.pid_inj (hi : Inv host s) (hl : s.slots.lookup p = some slot) (hl' : s.slots.lookup q = some slot')
    (hp : slot.pid = some pid) (hp' : slot'.pid = some pid) : p = q := by
  obtain ⟨ref, h⟩ := hi.resident hl hp
  obtain ⟨ref', h'⟩ := hi.resident hl' hp'
  have := hi.launch_eq_of_pid h.launched h'.launched rfl
  cases this; rfl

theorem Inv.ref_inj (hi : Inv host s) (hl : s.slots.lookup p = some slot) (hl' : s.slots.lookup q = some slot')
    (hr : slot.ref = some ref) (hr' : slot'.ref = some ref) : p = q := by
  obtain ⟨pid, h⟩ := hi.resident_ref hl hr
  obtain ⟨pid', h'⟩ := hi.resident_ref hl' hr'
  have := hi.launch_eq_of_ref h.launched h'.launched rfl
  cases this; rfl

theorem Inv.find_by_pid_eq (hi : Inv host s) (hl : s.slots.lookup p = some slot) (hp : slot.pid = some pid) :
    find_by_pid s.slots pid = some ⟨p, slot⟩ := by
  cases hf : find_by_pid s.slots pid with
  | none => exact absurd hp (find_by_pid_none hf hl)
  | some e =>
    obtain ⟨hle, hpe⟩ := find_by_pid_some hf
    have := hi.pid_inj hle hl hpe hp
    obtain ⟨q, slot'⟩ := e
    cases this
    rw [hl] at hle; cases hle; rfl

theorem Inv.find_by_ref_eq (hi : Inv host s) (hl : s.slots.lookup p = some slot) (hr : slot.ref = some ref) :
    find_by_ref s.slots ref = some ⟨p, slot⟩ := by
  cases hf : find_by_ref s.slots ref with
  | none => exact absurd hr (find_by_ref_none hf hl)
  | some e =>
    obtain ⟨hle, hre⟩ := find_by_ref_some hf
    have := hi.ref_inj hle hl hre hr
    obtain ⟨q, slot'⟩ := e
    cases this
    rw [hl] at hle; cases hle; rfl

theorem Inv.down_pid (hi : Inv host s) (h : Resident s p slot pid ref) {d : Otp.Down Pid Ref Reason}
    (hd : d ∈ s.otp.mailbox) (hr : d.ref = ref) : d.pid = pid := by
  obtain ⟨l, hl, he⟩ := hi.good.mailbox_taken hd
  have h₁ : l.ref = d.ref := (Prod.mk.inj he).1
  have h₂ : l.pid = d.pid := (Prod.mk.inj he).2
  have := hi.launch_eq_of_ref hl h.launched (h₁.trans hr)
  rw [← h₂, this]

theorem inv_init (host : Host) : Inv host (init host) where
  keys p := by
    show p ∈ configured host ↔ _
    rw [← AList.lookup_isSome, configured, AList.lookup_to_alist, List.dlookup_isSome]
    simp [List.keys]
  slot p slot h := by
    rw [show (init host).slots = configured host from rfl, configured, AList.lookup_to_alist] at h
    have := List.of_mem_dlookup h
    obtain ⟨q, -, he⟩ := List.mem_map.mp this
    cases he
    exact .inl rfl
  pids_nodup := List.nodup_nil
  refs_nodup := List.nodup_nil
  good := by
    have h₁ : pids [] = ∅ := by simp [pids]
    have h₂ : monitored [] = ∅ := by simp [monitored]
    show Otp.World.empty.Good (pids []) (monitored [])
    rw [h₁, h₂]
    exact Otp.World.Good.empty
  owned pid h := by cases h

/-! ## Every step keeps it -/

theorem keys_insert (hk : ∀ p, p ∈ s.slots ↔ p ∈ host.slots) (hl : s.slots.lookup q = some slot) (new : Slot) (p : Port) :
    p ∈ s.slots.insert q new ↔ p ∈ host.slots := by
  rw [AList.mem_insert, hk]
  constructor
  · intro hx
    rcases hx with rfl | h
    · exact (hk p).mp (AList.lookup_isSome.mp (by rw [hl]; rfl))
    · exact h
  · exact .inr

theorem Inv.room_tracks_other (hi : Inv host s) (hl : s.slots.lookup p = some slot) (hl' : s.slots.lookup q = some slot')
    (hpq : q ≠ p) (h : Resident s q slot' pid ref) : (room slot s.otp).Tracks ref pid := by
  rcases hi.slot p slot hl with rfl | ⟨pid₀, ref₀, h₀⟩
  · exact h.tracked
  · refine (room_tracks h₀.pid_eq h₀.ref_eq).mpr ⟨h.tracked, fun e => hpq ?_⟩
    exact hi.ref_inj hl' hl h.ref_eq (e ▸ h₀.ref_eq)

theorem Inv.room_owned (hi : Inv host s) (hl : s.slots.lookup p = some slot) (hc : pid ∈ (room slot s.otp).children) :
    ∃ q slot', q ≠ p ∧ s.slots.lookup q = some slot' ∧ slot'.pid = some pid := by
  rcases hi.slot p slot hl with rfl | ⟨pid₀, ref₀, h₀⟩
  · obtain ⟨q, slot', hl', hp'⟩ := hi.owned pid hc
    refine ⟨q, slot', ?_, hl', hp'⟩
    intro e
    subst e
    rw [hl] at hl'; cases hl'; cases hp'
  · rw [room_children h₀.pid_eq h₀.ref_eq] at hc
    obtain ⟨hne, hc⟩ := Finset.mem_erase.mp hc
    obtain ⟨q, slot', hl', hp'⟩ := hi.owned pid hc
    refine ⟨q, slot', ?_, hl', hp'⟩
    intro e
    subst e
    rw [hl] at hl'; cases hl'
    rw [h₀.pid_eq] at hp'
    exact hne (Option.some.inj hp').symm

theorem inv_load_start (hi : Inv host s) {c : LoadCall} {early : Option Reason} (hL : Launches s c slot)
    (hs : c.start = .ok pid ref early) (hf : fresh s.launched c.start = true) (l : Finset Pid) (ev : List Emission) :
    Inv host
      { slots := s.slots.insert c.port (started c pid ref)
        intent := s.intent
        otp := start_world pid ref early (room slot s.otp)
        listening := l
        launched := s.launched ++ [⟨c.port, pid, ref⟩]
        events := ev } := by
  rw [hs] at hf
  have hnew := fresh_ok hf
  refine ⟨keys_insert hi.keys hL.found _, ?_, ?_, ?_, ?_, ?_⟩
  · intro p slot' h
    rcases lookup_insert_cases h with ⟨rfl, rfl⟩ | ⟨hne, h⟩
    · refine .inr ⟨pid, ref, rfl, by simp [started], ⟨c.model, rfl⟩, rfl, rfl, by simp, ?_⟩
      exact start_world_tracks.mpr (.inr ⟨rfl, rfl⟩)
    · refine (hi.slot p slot' h).mono (fun k hk => List.mem_append_left _ hk) fun pid' ref' hR _ => ?_
      exact start_world_tracks.mpr (.inl (hi.room_tracks_other hL.found h hne hR))
  · rw [List.map_append]
    refine List.nodup_append'.mpr ⟨hi.pids_nodup, List.nodup_singleton _, ?_⟩
    simpa using fun k hk => (hnew k hk).1
  · rw [List.map_append]
    refine List.nodup_append'.mpr ⟨hi.refs_nodup, List.nodup_singleton _, ?_⟩
    simpa using fun k hk => (hnew k hk).2
  · rw [pids_append, monitored_append]
    refine start_world_good (room_good hi.good) ?_
    intro hx
    obtain ⟨k, hk, e⟩ := hx
    exact (hnew k hk).1 e
  · intro pid' hc
    rcases start_world_children hc with rfl | hc
    · exact ⟨c.port, _, AList.lookup_insert _, rfl⟩
    · obtain ⟨q, slot', hne, hl', hp'⟩ := hi.room_owned hL.found hc
      exact ⟨q, slot', by rw [AList.lookup_insert_ne hne]; exact hl', hp'⟩

theorem inv_load_fail (hi : Inv host s) {c : LoadCall} (hL : Launches s c slot) (l : Finset Pid) :
    Inv host { s with slots := s.slots.insert c.port (empty_slot c.port), otp := room slot s.otp, listening := l } := by
  refine ⟨keys_insert hi.keys hL.found _, ?_, hi.pids_nodup, hi.refs_nodup, room_good hi.good, ?_⟩
  · intro p slot' h
    rcases lookup_insert_cases h with ⟨rfl, rfl⟩ | ⟨hne, h⟩
    · exact .inl rfl
    · exact (hi.slot p slot' h).mono (fun _ hk => hk) fun pid' ref' hR _ => hi.room_tracks_other hL.found h hne hR
  · intro pid' hc
    obtain ⟨q, slot', hne, hl', hp'⟩ := hi.room_owned hL.found hc
    exact ⟨q, slot', by rw [AList.lookup_insert_ne hne]; exact hl', hp'⟩

theorem inv_mark_up (hi : Inv host s) (hl : s.slots.lookup p = some slot) (hp : slot.pid = some pid) (props : Props)
    (ev : List Emission) :
    Inv host { s with slots := s.slots.insert p { slot with status := .up, props := props }, events := ev } := by
  obtain ⟨ref, hR⟩ := hi.resident hl hp
  refine ⟨keys_insert hi.keys hl _, ?_, hi.pids_nodup, hi.refs_nodup, hi.good, ?_⟩
  · intro q slot' h
    rcases lookup_insert_cases h with ⟨rfl, rfl⟩ | ⟨-, h⟩
    · exact .inr ⟨pid, ref, hR.port_eq, by simp, hR.model, hR.pid_eq, hR.ref_eq, hR.launched, hR.tracked⟩
    · exact (hi.slot q slot' h).mono (fun _ hk => hk) fun _ _ _ ht => ht
  · intro pid' hc
    obtain ⟨q, slot', hl', hp'⟩ := hi.owned pid' hc
    by_cases hq : q = p
    · subst hq
      rw [hl] at hl'; cases hl'
      exact ⟨q, _, AList.lookup_insert _, hp'⟩
    · exact ⟨q, slot', by rw [AList.lookup_insert_ne hq]; exact hl', hp'⟩

theorem inv_down (hi : Inv host s) {d : Otp.Down Pid Ref Reason} (hd : d ∈ s.otp.mailbox)
    (hl : s.slots.lookup p = some slot) (hr : slot.ref = some d.ref) (intent : Finset Port) (ev : List Emission) :
    Inv host
      { s with slots := s.slots.insert p (empty_slot p), intent := intent, otp := s.otp.receive d, events := ev } := by
  obtain ⟨pid, hR⟩ := hi.resident_ref hl hr
  refine ⟨keys_insert hi.keys hl _, ?_, hi.pids_nodup, hi.refs_nodup, hi.good.receive, ?_⟩
  · intro q slot' h
    rcases lookup_insert_cases h with ⟨rfl, rfl⟩ | ⟨hne, h⟩
    · exact .inl rfl
    · refine (hi.slot q slot' h).mono (fun _ hk => hk) fun pid' ref' hR' ht => ht.receive fun e => hne ?_
      exact hi.ref_inj h hl hR'.ref_eq (e ▸ hr)
  · intro pid' hc
    obtain ⟨q, slot', hl', hp'⟩ := hi.owned pid' hc
    -- the engine reported dead is no child, so the slot it frees owned none
    have hne : q ≠ p := by
      intro he
      subst he
      rw [hl] at hl'; cases hl'
      rw [hR.pid_eq] at hp'; cases hp'
      exact hi.good.dead d hd (hi.down_pid hR hd rfl ▸ hc)
    exact ⟨q, slot', by rw [AList.lookup_insert_ne hne]; exact hl', hp'⟩

theorem inv_otp (hi : Inv host s) {w : Otp.World Pid Ref Reason} (hg : w.Good (pids s.launched) (monitored s.launched))
    (ht : ∀ p slot pid ref, s.slots.lookup p = some slot → Resident s p slot pid ref → w.Tracks ref pid)
    (hc : ∀ pid ∈ w.children, pid ∈ s.otp.children) (intent : Finset Port) :
    Inv host { s with intent := intent, otp := w } := by
  refine ⟨hi.keys, ?_, hi.pids_nodup, hi.refs_nodup, hg, fun pid h => hi.owned pid (hc pid h)⟩
  intro p slot h
  exact (hi.slot p slot h).mono (fun _ hk => hk) fun pid ref hR _ => ht p slot pid ref h hR

theorem inv_listening (hi : Inv host s) (l : Finset Pid) : Inv host { s with listening := l } := by
  refine ⟨hi.keys, ?_, hi.pids_nodup, hi.refs_nodup, hi.good, hi.owned⟩
  intro p slot h
  exact (hi.slot p slot h).mono (fun _ hk => hk) fun _ _ _ ht => ht

theorem inv_step (hi : Inv host s) {i : Input} (h : step host s i = some s') : Inv host s' := by
  cases step_trans h with
  | load_noop => exact hi
  | load_start l hL hs hf => exact inv_load_start hi hL hs hf l _
  | load_fail l hL hs => exact inv_load_fail hi hL l
  | unload_noop => exact hi
  | unload hl hp =>
    refine inv_otp hi hi.good.terminate_child (fun _ _ _ _ _ hR => ?_) (fun pid hc => ?_) _
    · exact Otp.World.tracks_terminate_child.mpr hR.tracked
    · rw [Otp.World.children_terminate_child] at hc
      exact Finset.mem_of_mem_erase hc
  | mark_up_noop => exact hi
  | mark_up _ hf hs => exact inv_mark_up hi (find_by_pid_some hf).1 (find_by_pid_some hf).2 _ _
  | @down_noop d _ hd hf =>
    refine inv_otp hi hi.good.receive (fun p slot pid ref hl hR => ?_) (fun _ hc => hc) s.intent
    exact hR.tracked.receive fun e => find_by_ref_none hf hl (e ▸ hR.ref_eq)
  | down hd hf => exact inv_down hi hd (find_by_ref_some hf).1 (find_by_ref_some hf).2 _ _
  | exit hp =>
    refine inv_otp hi hi.good.exit (fun _ _ _ _ _ hR => ?_) (fun pid hc => ?_) s.intent
    · exact Otp.World.tracks_exit.mpr hR.tracked
    · exact Finset.mem_of_mem_erase hc
  | bind _ => exact inv_listening hi _
  | release => exact inv_listening hi _

theorem run_inv {h : History} (hr : Run host h s) : Inv host s :=
  hr.inv (inv_init host) fun _ _ _ hi hs => inv_step hi hs

end

/-! ## The table of a running Fleet -/

structure TableOk (host : Host) (s : Sys) : Prop where
  keys : ∀ p, p ∈ s.slots ↔ p ∈ host.slots
  port : ∀ p slot, s.slots.lookup p = some slot → slot.port = p
  empty_iff : ∀ p slot, s.slots.lookup p = some slot →
    (slot.status = .empty ↔ slot.pid = none ∧ slot.ref = none ∧ slot.model = none)
  pids_distinct : ∀ p q slot slot' pid, s.slots.lookup p = some slot → s.slots.lookup q = some slot' →
    slot.pid = some pid → slot'.pid = some pid → p = q
  refs_distinct : ∀ p q slot slot' ref, s.slots.lookup p = some slot → s.slots.lookup q = some slot' →
    slot.ref = some ref → slot'.ref = some ref → p = q
  one_owner : ∀ pid ∈ s.otp.children, ∃! p, ∃ slot, s.slots.lookup p = some slot ∧ slot.pid = some pid
  down_pending : ∀ p slot pid, s.slots.lookup p = some slot → slot.pid = some pid → pid ∉ s.otp.children →
    ∃ ref reason, slot.ref = some ref ∧ ⟨ref, pid, reason⟩ ∈ s.otp.mailbox

theorem SlotOk.port_eq {s : Sys} {p : Port} {slot : Slot} (h : SlotOk s p slot) : slot.port = p := by
  rcases h with rfl | ⟨pid, ref, h⟩
  · rfl
  · exact h.port_eq

theorem SlotOk.empty_iff {s : Sys} {p : Port} {slot : Slot} (h : SlotOk s p slot) :
    slot.status = .empty ↔ slot.pid = none ∧ slot.ref = none ∧ slot.model = none := by
  rcases h with rfl | ⟨pid, ref, h⟩
  · simp [empty_slot]
  · have := h.pid_eq
    constructor
    · exact fun e => absurd e h.status
    · intro hx
      obtain ⟨e, -, -⟩ := hx
      rw [this] at e; cases e

/-- In every state Fleet reaches, the table has the configured ports, a slot is
empty or wholly filled, no engine is in two slots or in none, and a slot whose
engine is dead has its `:DOWN` coming. -/
theorem table_ok {host : Host} {h : History} {s : Sys} (hr : Run host h s) : TableOk host s := by
  have hi := run_inv hr
  refine ⟨hi.keys, fun p slot hl => (hi.slot p slot hl).port_eq, fun p slot hl => (hi.slot p slot hl).empty_iff,
    fun p q slot slot' pid hl hl' => hi.pid_inj hl hl', fun p q slot slot' ref hl hl' => hi.ref_inj hl hl', ?_, ?_⟩
  · intro pid hc
    obtain ⟨p, slot, hl, hp⟩ := hi.owned pid hc
    refine ⟨p, ⟨slot, hl, hp⟩, ?_⟩
    intro q hx
    obtain ⟨slot', hl', hp'⟩ := hx
    exact hi.pid_inj hl' hl hp' hp
  · intro p slot pid hl hp hd
    obtain ⟨ref, hR⟩ := hi.resident hl hp
    obtain ⟨reason, hm⟩ := hR.tracked.down_of_dead hd
    exact ⟨ref, reason, hR.ref_eq, hm⟩

/-! A host with one slot, and two models to load there. -/

def one_slot : Host where
  slots := [8081]
  host_id := "gpu-01"
  sha256 := fun _ => Vector.replicate 32 0
  float_to_string := fun _ _ => ""

def model_a : ModelRef := { id := "a", path := "/models/a.gguf", engine := .llama_cpp }

def model_b : ModelRef := { id := "b", path := "/models/b.gguf", engine := .llama_cpp }

def load_ok (model : ModelRef) (n : Nat) : Input :=
  .load { model := model, port := 8081, profile := ∅, start := .ok n n none }

/-- An engine was loaded and crashed, and Fleet has not heard of it yet. -/
theorem table_ok_crashed : ∃ h s, Run one_slot h s ∧ 0 ∉ s.otp.children ∧ s.launched ≠ [] ∧ TableOk one_slot s := by
  have he : ∃ s, Machine.exec (step one_slot) (init one_slot) [load_ok model_a 0, .exit 0 (.other "boom")] = some s ∧
      0 ∉ s.otp.children ∧ s.launched ≠ [] := ⟨_, rfl, by decide, by decide⟩
  obtain ⟨s, he, hc, hl⟩ := he
  exact ⟨_, s, .of_exec he, hc, hl, table_ok (.of_exec he)⟩

end AiroAgent.Fleet
