import AiroAgent.FleetInv

/-!
# Crashes of the Fleet process

The application supervisor restarts Fleet alone: the table is built anew from
the configuration, the monitors and the mailbox are gone, and the engines under
Instances keep running. A crash falls between two messages, or inside a load:
once the resident is evicted, or once the new engine is started. A crash later
in a handler loses the same as a crash after it.
-/

namespace AiroAgent.Fleet

/-- What a new Fleet process finds: the children, and what Fleet never held. -/
def restarted (host : Host) (s : Sys) : Sys :=
  { init host with otp := s.otp.restart, listening := s.listening, launched := s.launched, events := s.events }

inductive Turn where
  | input (i : Input)
  | crash
  | crash_evicted (c : LoadCall)
  | crash_started (c : LoadCall)

def admits (s : Sys) (c : LoadCall) : Option Slot :=
  if c.held then none else (s.slots.lookup c.port).filter fun slot => !already_serving slot c.model c.profile

def turn (host : Host) (s : Sys) : Turn → Option Sys
  | .input i => step host s i
  | .crash => some (restarted host s)
  | .crash_evicted c => (admits s c).map fun slot => restarted host (make_room host c slot s).2
  | .crash_started c =>
    match admits s c with
    | some slot =>
      match start_engine c (make_room host c slot s).2 with
      | (.ok _, s') => if fresh s.launched c.start then some (restarted host s') else none
      | (.error _, _) => none
    | none => none

def survivors (s : Sys) : Turn → Finset Pid
  | .input _ => ∅
  | .crash => s.otp.children
  | .crash_evicted c =>
    match admits s c with
    | some slot => (room slot s.otp).children
    | none => ∅
  | .crash_started c =>
    match admits s c, c.start with
    | some slot, .ok pid ref early => (start_world pid ref early (room slot s.otp)).children
    | _, _ => ∅

/-- A run of Fleet, its crashes included. -/
abbrev CrashRun (host : Host) : List (Sys × Turn) → Sys → Prop := Machine.Run (turn host) (init host)

/-- Each live engine is in one slot. So no port has two of them, and no slot of a
live engine is reported as empty. -/
structure Owned (host : Host) (s : Sys) : Prop where
  one_slot : ∀ pid ∈ s.otp.children, ∃! p, ∃ slot, s.slots.lookup p = some slot ∧ slot.pid = some pid
  one_engine : ∀ l ∈ s.launched, ∀ l' ∈ s.launched, l.port = l'.port → l.pid ∈ s.otp.children →
    l'.pid ∈ s.otp.children → l = l'
  not_hidden : ∀ l ∈ s.launched, l.pid ∈ s.otp.children → ∀ info ∈ own_slots host s, info.port = l.port →
    info.status ≠ .empty

section
variable {host : Host} {s s' : Sys} {c : LoadCall} {slot : Slot} {t : Turn}

theorem admits_launches (h : admits s c = some slot) : Launches s c slot := by
  unfold admits at h
  cases hh : c.held with
  | true => rw [hh] at h; cases h
  | false =>
    rw [hh] at h
    obtain ⟨hl, ha⟩ := Option.filter_eq_some_iff.mp h
    exact ⟨hh, hl, by simpa using ha⟩

theorem Inv.live_slot (hi : Inv host s) {l : Launch} (hl : l ∈ s.launched) (hc : l.pid ∈ s.otp.children) :
    ∃ slot, s.slots.lookup l.port = some slot ∧ slot.pid = some l.pid := by
  obtain ⟨p, slot, hs, hp⟩ := hi.owned l.pid hc
  obtain ⟨ref, hR⟩ := hi.resident hs hp
  have e : p = l.port := congrArg Launch.port (hi.launch_eq_of_pid hR.launched hl rfl)
  exact ⟨slot, e ▸ hs, hp⟩

theorem Inv.owned_ok (hi : Inv host s) : Owned host s := by
  refine ⟨?_, ?_, ?_⟩
  · intro pid hc
    obtain ⟨p, slot, hl, hp⟩ := hi.owned pid hc
    refine ⟨p, ⟨slot, hl, hp⟩, ?_⟩
    intro q h
    obtain ⟨slot', hl', hp'⟩ := h
    exact hi.pid_inj hl' hl hp' hp
  · intro l hl l' hl' hp hc hc'
    obtain ⟨slot, hs, hpid⟩ := hi.live_slot hl hc
    obtain ⟨slot', hs', hpid'⟩ := hi.live_slot hl' hc'
    rw [← hp, hs] at hs'; cases hs'
    exact hi.launch_eq_of_pid hl hl' (Option.some.inj (hpid.symm.trans hpid'))
  · intro l hl hc info hin hport he
    obtain ⟨slot, hs, hpid⟩ := hi.live_slot hl hc
    obtain ⟨⟨q, slot'⟩, hm, rfl⟩ := List.mem_map.mp hin
    have hq := mem_entries_iff.mp hm
    have e : q = l.port := (hi.slot _ _ hq).port_eq.symm.trans hport
    subst e
    rw [hs] at hq; cases hq
    rw [((hi.slot _ _ hs).empty_iff.mp he).1] at hpid
    cases hpid

theorem restarted_lookup {p : Port} (h : (restarted host s).slots.lookup p = some slot) : slot = empty_slot p := by
  rcases (inv_init host).slot p slot h with rfl | ⟨pid, ref, hR⟩
  · rfl
  · exact absurd hR.launched (by simp [init])

theorem inv_restarted (hp : (s.launched.map (·.pid)).Nodup) (hr : (s.launched.map (·.ref)).Nodup)
    (hg : s.otp.Good (pids s.launched) (monitored s.launched)) (hc : s.otp.children = ∅) : Inv host (restarted host s) where
  keys := (inv_init host).keys
  slot _ _ h := .inl (restarted_lookup h)
  pids_nodup := hp
  refs_nodup := hr
  good := hg.restart
  owned pid h := by
    have h : pid ∈ s.otp.children := h
    rw [hc] at h; cases h

theorem not_owned_restarted (hc : s.otp.children ≠ ∅) : ¬ Owned host (restarted host s) := by
  intro ho
  obtain ⟨pid, hpid⟩ := Finset.nonempty_iff_ne_empty.mpr hc
  obtain ⟨p, ⟨slot, hl, hp⟩, -⟩ := ho.one_slot pid hpid
  rw [restarted_lookup hl] at hp
  cases hp

theorem turn_crash (hi : Inv host s) (h : turn host s t = some s') (ht : ∀ i, t ≠ .input i) :
    ∃ w : Sys, s' = restarted host w ∧ w.otp.children = survivors s t ∧ (w.launched.map (·.pid)).Nodup ∧
      (w.launched.map (·.ref)).Nodup ∧ w.otp.Good (pids w.launched) (monitored w.launched) := by
  cases t with
  | input i => exact absurd rfl (ht i)
  | crash =>
    cases h
    exact ⟨s, rfl, rfl, hi.pids_nodup, hi.refs_nodup, hi.good⟩
  | crash_evicted c =>
    simp only [turn, Option.map_eq_some_iff] at h
    obtain ⟨slot, ha, rfl⟩ := h
    refine ⟨_, rfl, ?_, ?_⟩
    · simp only [survivors, ha]
      rw [make_room_eq]
    · rw [make_room_eq]
      exact ⟨hi.pids_nodup, hi.refs_nodup, room_good hi.good⟩
  | crash_started c =>
    cases ha : admits s c with
    | none => simp only [turn, ha] at h; cases h
    | some slot =>
      cases hs : c.start with
      | error reason =>
        simp only [turn, ha, start_engine_error hs] at h
        cases h
      | ok pid ref early =>
        simp only [turn, ha, start_engine_ok hs, Option.ite_none_right_eq_some, Option.some.injEq] at h
        obtain ⟨hf, rfl⟩ := h
        have hn := inv_load_start hi (admits_launches ha) hs hf ∅ []
        refine ⟨_, rfl, ?_, ?_⟩
        · simp only [survivors, ha, hs]
          rw [make_room_eq]
        · rw [make_room_eq]
          exact ⟨hn.pids_nodup, hn.refs_nodup, hn.good⟩

theorem turn_owned (hi : Inv host s) (h : turn host s t = some s') :
    (survivors s t = ∅ ∧ Inv host s') ∨ (survivors s t ≠ ∅ ∧ ¬ Owned host s') := by
  by_cases ht : ∀ i, t ≠ .input i
  · obtain ⟨w, rfl, hc, hp, hr, hg⟩ := turn_crash hi h ht
    rw [← hc]
    by_cases he : w.otp.children = ∅
    · exact .inl ⟨he, inv_restarted hp hr hg he⟩
    · exact .inr ⟨he, not_owned_restarted he⟩
  · obtain ⟨i, hi'⟩ := not_forall_not.mp ht
    subst hi'
    exact .inl ⟨rfl, inv_step hi h⟩

def AlwaysOwned (host : Host) (h : List (Sys × Turn)) (s : Sys) : Prop := (∀ x ∈ h, Owned host x.1) ∧ Owned host s

def CrashesBare (h : List (Sys × Turn)) : Prop := ∀ x ∈ h, survivors x.1 x.2 = ∅

theorem always_owned_snoc {h : List (Sys × Turn)} :
    AlwaysOwned host (h ++ [(s, t)]) s' ↔ AlwaysOwned host h s ∧ Owned host s' := by
  simp [AlwaysOwned, or_imp, forall_and]

theorem crashes_bare_snoc {h : List (Sys × Turn)} :
    CrashesBare (h ++ [(s, t)]) ↔ CrashesBare h ∧ survivors s t = ∅ := by
  simp [CrashesBare, or_imp, forall_and]

theorem run_owned {h : List (Sys × Turn)} (hr : CrashRun host h s) :
    (CrashesBare h ∧ AlwaysOwned host h s ∧ Inv host s) ∨ (¬ CrashesBare h ∧ ¬ AlwaysOwned host h s) := by
  induction hr with
  | nil =>
    refine .inl ⟨?_, ⟨?_, (inv_init host).owned_ok⟩, inv_init host⟩
    · intro x hx; cases hx
    · intro x hx; cases hx
  | @snoc h s t s' hr hst ih =>
    rw [always_owned_snoc, crashes_bare_snoc]
    rcases ih with ⟨hb, ho, hi⟩ | ⟨hb, ho⟩
    · rcases turn_owned hi hst with ⟨he, hi'⟩ | ⟨he, hn⟩
      · exact .inl ⟨⟨hb, he⟩, ⟨ho, hi'.owned_ok⟩, hi'⟩
      · exact .inr ⟨fun h => he h.2, fun h => hn h.2⟩
    · exact .inr ⟨fun h => hb h.1, fun h => ho h.1⟩

/-- **Owned engines across crashes.** In every state of a run each live engine is in
exactly one slot, if and only if Fleet crashes only while no engine is alive. -/
theorem always_owned_iff {h : List (Sys × Turn)} (hr : CrashRun host h s) : AlwaysOwned host h s ↔ CrashesBare h := by
  rcases run_owned hr with ⟨hb, ho, -⟩ | ⟨hb, ho⟩
  · exact iff_of_true ho hb
  · exact iff_of_false ho hb

/-- Fleet crashes once its only engine is dead, and loads another. -/
theorem always_owned_iff_bare : ∃ h s, CrashRun one_slot h s ∧
    h.map Prod.snd = [.input (load_ok model_a 0), .input (.exit 0 (.other "boom")), .crash, .input (load_ok model_b 1)] ∧
    (AlwaysOwned one_slot h s ↔ CrashesBare h) := by
  have he : ∃ s, Machine.exec (turn one_slot) (init one_slot) [.input (load_ok model_a 0),
      .input (.exit 0 (.other "boom")), .crash, .input (load_ok model_b 1)] = some s := ⟨_, rfl⟩
  obtain ⟨s, he⟩ := he
  exact ⟨_, s, .of_exec he, rfl, always_owned_iff (.of_exec he)⟩

/-- Fleet crashes with model a up, and a load of model b starts a second live engine
on the port of the first. -/
theorem crash_orphans_engine : ∃ h s, CrashRun one_slot h s ∧
    h.map Prod.snd = [.input (load_ok model_a 0), .input (.mark_up 0 {} 0), .crash, .input (load_ok model_b 1)] ∧
    0 ∈ s.otp.children ∧ 1 ∈ s.otp.children ∧ s.launched.map (fun l => (l.port, l.pid)) = [(8081, 0), (8081, 1)] ∧
    ¬ AlwaysOwned one_slot h s := by
  have he : ∃ s, Machine.exec (turn one_slot) (init one_slot) [.input (load_ok model_a 0), .input (.mark_up 0 {} 0),
        .crash, .input (load_ok model_b 1)] = some s ∧ 0 ∈ s.otp.children ∧ 1 ∈ s.otp.children ∧
      s.launched.map (fun l => (l.port, l.pid)) = [(8081, 0), (8081, 1)] ∧ s.launched = [⟨8081, 0, 0⟩, ⟨8081, 1, 1⟩] :=
    ⟨_, rfl, by decide, by decide, rfl, rfl⟩
  obtain ⟨s, he, h₀, h₁, hm, hl⟩ := he
  refine ⟨_, s, .of_exec he, rfl, h₀, h₁, hm, fun ho => ?_⟩
  have := ho.2.one_engine ⟨8081, 0, 0⟩ (by simp [hl]) ⟨8081, 1, 1⟩ (by simp [hl]) rfl h₀ h₁
  cases this

end

end AiroAgent.Fleet
