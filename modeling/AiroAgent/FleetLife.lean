import AiroAgent.FleetEnds
import AiroAgent.FleetPort

/-!
# The life of an engine

An engine is published as loading, then as up, then with the type of its end,
and a prefix of that is all there ever is: late casts and late `:DOWN`s find no
slot by their pid or ref, and the `:DOWN` of an evicted engine is flushed. The
events of an engine are those of its port that carry its pid, so `step_port` is
all that is needed to follow it.
-/

namespace AiroAgent.Fleet

inductive Lifecycle : List EventType → Prop
  | loading : Lifecycle [.loading]
  | up : Lifecycle [.loading, .up]
  | failed {t : EventType} : t.terminal = true → Lifecycle [.loading, t]
  | ended {t : EventType} : t.terminal = true → Lifecycle [.loading, .up, t]

def types (pid : Pid) (events : List Emission) : List EventType :=
  (events.filter (·.pid = some pid)).map (·.event.type)

/-- What has been published of an engine that is in a slot. -/
def standing : Status → List EventType
  | .empty => []
  | .loading => [.loading]
  | .up => [.loading, .up]

theorem types_append (pid : Pid) (es es' : List Emission) : types pid (es ++ es') = types pid es ++ types pid es' := by
  unfold types; rw [List.filter_append, List.map_append]

theorem types_self {pid : Pid} {e : Emission} (h : e.pid = some pid) : types pid [e] = [e.event.type] := by
  simp [types, h]

theorem types_other {pid : Pid} {e : Emission} (h : e.pid ≠ some pid) : types pid [e] = [] := by simp [types, h]

theorem types_nil_of_forall {pid : Pid} {es : List Emission} (h : ∀ e ∈ es, e.pid ≠ some pid) : types pid es = [] := by
  unfold types
  rw [List.filter_eq_nil_iff.mpr fun e he => by simpa using h e he]
  rfl

theorem Lifecycle.standing_end {status : Status} (h : status ≠ .empty) {t : EventType} (ht : t.terminal = true) :
    Lifecycle (standing status ++ [t]) := by
  cases status with
  | empty => exact absurd rfl h
  | loading => exact .failed ht
  | up => exact .ended ht

theorem standing_terminal (status : Status) {t : EventType} (h : t ∈ standing status) : t.terminal = false := by
  cases status with
  | empty => cases h
  | loading => simp only [standing, List.mem_singleton] at h; subst h; rfl
  | up =>
    simp only [standing, List.mem_cons, List.not_mem_nil, or_false] at h
    rcases h with rfl | rfl <;> rfl

theorem terminal_type_terminal (expected : Bool) (slot : Slot) : (terminal_type expected slot).terminal = true := by
  unfold terminal_type
  split
  · rfl
  · split <;> rfl

/-! ## Events and engines -/

def Attributed (s : Sys) : Prop := ∀ e ∈ s.events, ∃ l ∈ s.launched, e.pid = some l.pid ∧ e.event.port = l.port

section
variable {host : Host} {s s' : Sys} {p : Port} {slot slot' : Slot} {i : Input} {l : Launch} {es : List Emission}
  {h : History}

theorem attributed_step (hi : Inv host s) (ha : Attributed s) (hst : step host s i = some s') : Attributed s' := by
  have hold : ∀ e ∈ s.events, ∃ l ∈ s'.launched, e.pid = some l.pid ∧ e.event.port = l.port := by
    intro e he
    obtain ⟨l, hl, h⟩ := ha e he
    exact ⟨l, step_launched hst l hl, h⟩
  have hslot : ∀ p slot, s.slots.lookup p = some slot → ∀ pid, slot.pid = some pid →
      ∃ l ∈ s'.launched, slot.pid = some l.pid ∧ slot.port = l.port := by
    intro p slot hl pid hp
    obtain ⟨ref, hR⟩ := hi.resident hl hp
    exact ⟨_, step_launched hst _ hR.launched, hp, hR.port_eq⟩
  cases step_trans hst with
  | load_start l hL hs hf =>
    intro e he
    rcases List.mem_append.mp he with he | he
    · exact hold e he
    · rw [List.mem_singleton] at he; subst he
      exact ⟨_, List.mem_append_right _ (List.mem_singleton_self _), rfl, rfl⟩
  | mark_up hk hf hs =>
    intro e he
    obtain ⟨hl, hp⟩ := find_by_pid_some hf
    rcases List.mem_append.mp he with he | he
    · exact hold e he
    · rw [List.mem_singleton] at he; subst he
      exact hslot _ _ hl _ hp
  | down hd hf =>
    intro e he
    obtain ⟨hl, hr⟩ := find_by_ref_some hf
    obtain ⟨pid, hR⟩ := hi.resident_ref hl hr
    rcases List.mem_append.mp he with he | he
    · exact hold e he
    · rw [List.mem_singleton] at he; subst he
      exact hslot _ _ hl _ hR.pid_eq
  | _ => exact hold

theorem run_attributed (hr : Run host h s) : Attributed s := by
  induction hr with
  | nil => intro e he; cases he
  | snoc hr hst ih => exact attributed_step (run_inv hr) ih hst

theorem Inv.port_of_pid (hi : Inv host s) (ha : Attributed s) (hl : l ∈ s.launched) {e : Emission} (he : e ∈ s.events)
    (hp : e.pid = some l.pid) : e.event.port = l.port := by
  obtain ⟨l', hl', hp', hport⟩ := ha e he
  have : l' = l := hi.launch_eq_of_pid hl' hl (Option.some.inj (hp'.symm.trans hp))
  rw [hport, this]

theorem types_sent (hi : Inv host s) (ha : Attributed s) (hl : l ∈ s.launched) :
    types l.pid s.events = types l.pid (sent l.port s.events) := by
  unfold types sent
  rw [List.filter_filter]
  congr 1
  refine List.filter_congr fun e he => ?_
  by_cases hp : e.pid = some l.pid
  · simp [hp, hi.port_of_pid ha hl he hp]
  · simp [hp]

theorem types_unborn (ha : Attributed s) {pid : Pid} (hn : pid ∉ pids s.launched) : types pid s.events = [] := by
  refine types_nil_of_forall fun e he hp => ?_
  obtain ⟨l, hl, hp', -⟩ := ha e he
  exact hn ⟨l, hl, Option.some.inj (hp'.symm.trans hp)⟩

theorem types_step (hi : Inv host s) (ha : Attributed s) (hst : step host s i = some s') (hl : l ∈ s.launched)
    (hes : sent l.port s'.events = sent l.port s.events ++ es) :
    types l.pid s'.events = types l.pid s.events ++ types l.pid es := by
  rw [types_sent (inv_step hi hst) (attributed_step hi ha hst) (step_launched hst l hl), hes, types_append,
    ← types_sent hi ha hl]

/-! ## Ends and evictions -/

def Ends (s : Sys) (i : Input) (pid : Pid) : Prop := ∃ d now p slot, i = .down d now ∧ EndsAt s d p slot pid

def Evicts (s : Sys) (i : Input) (pid : Pid) : Prop := ∃ c slot, i = .load c ∧ Launches s c slot ∧ slot.pid = some pid

def Ended (h : History) (pid : Pid) : Prop := ∃ x ∈ h, Ends x.1 x.2 pid

def Evicted (h : History) (pid : Pid) : Prop := ∃ x ∈ h, Evicts x.1 x.2 pid

theorem ended_snoc {pid : Pid} : Ended (h ++ [(s, i)]) pid ↔ Ended h pid ∨ Ends s i pid := exists_mem_snoc

theorem evicted_snoc {pid : Pid} : Evicted (h ++ [(s, i)]) pid ↔ Evicted h pid ∨ Evicts s i pid := exists_mem_snoc

theorem not_ends_load {pid : Pid} : ¬ Ends s (.load c) pid := by
  intro hx
  obtain ⟨d, now, p, slot, e, -⟩ := hx
  cases e

theorem not_ends_mark_up {pid : Pid} : ¬ Ends s (.mark_up pid' props now) pid := by
  intro hx
  obtain ⟨d, now', p, slot, e, -⟩ := hx
  cases e

theorem not_evicts_mark_up {pid : Pid} : ¬ Evicts s (.mark_up pid' props now) pid := by
  intro hx
  obtain ⟨c, slot, e, -⟩ := hx
  cases e

theorem not_evicts_down {pid : Pid} : ¬ Evicts s (.down d now) pid := by
  intro hx
  obtain ⟨c, slot, e, -⟩ := hx
  cases e

theorem Inv.launch_slot (hi : Inv host s) (hl : l ∈ s.launched) (hs : s.slots.lookup l.port = some slot)
    (hs' : s.slots.lookup p = some slot') (hp : slot'.pid = some l.pid) : p = l.port ∧ slot' = slot := by
  obtain ⟨ref, hR⟩ := hi.resident hs' hp
  have e : p = l.port := congrArg Launch.port (hi.launch_eq_of_pid hR.launched hl rfl)
  subst e
  exact ⟨rfl, Option.some.inj (hs'.symm.trans hs)⟩

theorem ends_iff (hi : Inv host s) (hl : l ∈ s.launched) (hs : s.slots.lookup l.port = some slot) :
    Ends s i l.pid ↔ slot.pid = some l.pid ∧ ∃ d now, i = .down d now ∧ slot.ref = some d.ref := by
  constructor
  · intro h
    obtain ⟨d, now, p, slot', rfl, hE⟩ := h
    obtain ⟨-, rfl⟩ := hi.launch_slot hl hs hE.found hE.pid_eq
    exact ⟨hE.pid_eq, d, now, rfl, hE.ref_eq⟩
  · intro h
    obtain ⟨hp, d, now, rfl, hr⟩ := h
    exact ⟨d, now, l.port, slot, rfl, hs, hr, hp⟩

theorem evicts_iff (hi : Inv host s) (hl : l ∈ s.launched) (hs : s.slots.lookup l.port = some slot) :
    Evicts s i l.pid ↔ slot.pid = some l.pid ∧ ∃ c, i = .load c ∧ c.port = l.port ∧ Launches s c slot := by
  constructor
  · intro hx
    obtain ⟨c, slot', rfl, hL, hp⟩ := hx
    obtain ⟨hc, rfl⟩ := hi.launch_slot hl hs hL.found hp
    exact ⟨hp, c, rfl, hc, hL⟩
  · intro hx
    obtain ⟨hp, c, rfl, -, hL⟩ := hx
    exact ⟨c, slot, rfl, hL, hp⟩

/-! ## The life of one engine -/

structure Lives (h : History) (s : Sys) (l : Launch) (slot : Slot) : Prop where
  standing : slot.pid = some l.pid → types l.pid s.events = standing slot.status
  lifecycle : Lifecycle (types l.pid s.events)
  ended : (∃ t ∈ types l.pid s.events, t.terminal = true) ↔ Ended h l.pid
  evicted : Evicted h l.pid → slot.pid ≠ some l.pid ∧ ¬ Ended h l.pid
  gone : slot.pid ≠ some l.pid → Ended h l.pid ∨ Evicted h l.pid

theorem Lives.resident (hL : Lives h s l slot) (hp : slot.pid = some l.pid) : ¬ Ended h l.pid ∧ ¬ Evicted h l.pid := by
  refine ⟨fun he => ?_, fun he => (hL.evicted he).1 hp⟩
  obtain ⟨t, ht, htt⟩ := hL.ended.mpr he
  rw [hL.standing hp] at ht
  rw [standing_terminal _ ht] at htt
  cases htt

theorem Lives.silent (hL : Lives h s l slot) (hty : types l.pid s'.events = types l.pid s.events)
    (hE : ¬ Ends s i l.pid) (hin : slot'.pid = some l.pid → slot.pid = some l.pid ∧ slot'.status = slot.status)
    (hV : Evicts s i l.pid ↔ slot.pid = some l.pid ∧ slot'.pid ≠ some l.pid) :
    Lives (h ++ [(s, i)]) s' l slot' := by
  have hend : Ended (h ++ [(s, i)]) l.pid ↔ Ended h l.pid := by rw [ended_snoc]; simp [hE]
  refine ⟨fun hp => ?_, by rw [hty]; exact hL.lifecycle, by rw [hty, hend]; exact hL.ended, fun he => ?_, fun hn => ?_⟩
  · obtain ⟨hp, hst⟩ := hin hp
    rw [hty, hst]; exact hL.standing hp
  · rw [hend]
    rcases evicted_snoc.mp he with he | he
    · exact ⟨fun hp => (hL.evicted he).1 (hin hp).1, (hL.evicted he).2⟩
    · obtain ⟨hp, hn⟩ := hV.mp he
      exact ⟨hn, (hL.resident hp).1⟩
  · rw [hend, evicted_snoc]
    by_cases hp : slot.pid = some l.pid
    · exact .inr (.inr (hV.mpr ⟨hp, hn⟩))
    · exact (hL.gone hp).imp id .inl

theorem lives_step (hi : Inv host s) (ha : Attributed s) (hst : step host s i = some s') (hl : l ∈ s.launched)
    (hs : s.slots.lookup l.port = some slot) (hL : Lives h s l slot) :
    ∃ slot', s'.slots.lookup l.port = some slot' ∧ Lives (h ++ [(s, i)]) s' l slot' := by
  obtain ⟨slot', es, hs', hes, hps⟩ := step_port hi hst hs
  refine ⟨slot', hs', ?_⟩
  have hty := types_step hi ha hst hl hes
  have hE := ends_iff (i := i) hi hl hs
  have hV := evicts_iff (i := i) hi hl hs
  cases hps with
  | same hu =>
    refine hL.silent (by rw [hty]; exact List.append_nil _) ?_ (fun hp => ⟨hp, rfl⟩) (iff_of_false ?_ fun h => h.2 h.1)
    · rw [hE]
      intro hx
      obtain ⟨-, d, now, e, hr⟩ := hx
      exact hu.down d now e hr
    · rw [hV]
      intro hx
      obtain ⟨hp, c, e, hc, hLa⟩ := hx
      cases hcs : c.start with
      | ok pid ref early => exact absurd ⟨c, slot, ref, early, e, hc, hLa, hcs⟩ (hu.start pid)
      | error reason => exact absurd ⟨c, slot, reason, e, hc, hLa, by rw [running, hp]; rfl, hcs⟩ hu.clear
  | @start c pid ref early e hc hLa hcs =>
    have hne : some pid ≠ some l.pid := by
      intro he
      rw [← Option.some.inj he] at hE
      exact Starts.fresh hst ⟨c, slot, ref, early, e, hc, hLa, hcs⟩ ⟨l, hl, (Option.some.inj he).symm⟩
    refine hL.silent (by rw [hty, types_other hne, List.append_nil]) ?_ (fun hp => absurd hp hne) ?_
    · rw [e]
      exact not_ends_load
    · rw [hV]
      exact ⟨fun h => ⟨h.1, hne⟩, fun h => ⟨h.1, c, e, hc, hLa⟩⟩
  | clear hC hr =>
    obtain ⟨c, slot₀, reason, e, hc, hLa, -⟩ := hC
    have e₀ : slot₀ = slot := Option.some.inj (hLa.found.symm.trans (hc ▸ hs))
    subst e₀
    refine hL.silent (by rw [hty]; exact List.append_nil _) ?_ (fun hp => by cases hp) ?_
    · rw [e]
      exact not_ends_load
    · rw [hV]
      exact ⟨fun h => ⟨h.1, fun hp => by cases hp⟩, fun h => ⟨h.1, c, e, hc, hLa⟩⟩
  | @mark_up pid props now e hp hload =>
    have hnE : ¬ Ends s i l.pid := by rw [e]; exact not_ends_mark_up
    have hnV : ¬ Evicts s i l.pid := by rw [e]; exact not_evicts_mark_up
    by_cases hpl : slot.pid = some l.pid
    · have hty' : types l.pid s'.events = [.loading, .up] := by
        rw [hty, types_self hpl, hL.standing hpl, hload]; rfl
      obtain ⟨hne, hnv⟩ := hL.resident hpl
      refine ⟨fun _ => hty', by rw [hty']; exact .up, ?_, fun he => ?_, fun hn => absurd hpl hn⟩
      · rw [hty', ended_snoc]
        refine iff_of_false ?_ (by simp [hne, hnE])
        intro hx
        obtain ⟨t, ht, htt⟩ := hx
        rw [standing_terminal .up ht] at htt; cases htt
      · rcases evicted_snoc.mp he with he | he
        · exact absurd he hnv
        · exact absurd he hnV
    · exact hL.silent (by rw [hty, types_other hpl, List.append_nil]) hnE (fun h => absurd h hpl)
        (iff_of_false hnV fun h => hpl h.1)
  | @down d now e hr =>
    have hnV : ¬ Evicts s i l.pid := by rw [e]; exact not_evicts_down
    by_cases hpl : slot.pid = some l.pid
    · have hend : Ended (h ++ [(s, i)]) l.pid := ended_snoc.mpr (.inr (hE.mpr ⟨hpl, d, now, e, hr⟩))
      obtain ⟨ref, hR⟩ := hi.resident hs hpl
      rw [types_self hpl, hL.standing hpl] at hty
      refine ⟨fun hp => (by cases hp), ?_, iff_of_true ?_ hend, fun he => ?_, fun _ => .inl hend⟩
      · rw [hty]
        exact .standing_end hR.status (terminal_type_terminal _ slot)
      · rw [hty]
        exact ⟨_, List.mem_append_right _ (List.mem_singleton_self _), terminal_type_terminal _ slot⟩
      · rcases evicted_snoc.mp he with he | he
        · exact absurd he (hL.resident hpl).2
        · exact absurd he hnV
    · refine hL.silent (by rw [hty, types_other hpl, List.append_nil]) ?_ (fun hp => by cases hp)
        (iff_of_false hnV fun h => hpl h.1)
      rw [hE]
      exact fun h => hpl h.1

theorem run_ended_mem {pid : Pid} (hr : Run host h s) (hE : Ended h pid) : pid ∈ pids s.launched := by
  refine run_mentions (E := fun s i => Ends s i pid) (fun s i s' hi hst h => ?_) hr hE
  obtain ⟨d, now, p, slot, -, h⟩ := h
  exact step_pids hst (hi.mem_pids h.found h.pid_eq)

theorem run_evicted_mem {pid : Pid} (hr : Run host h s) (hE : Evicted h pid) : pid ∈ pids s.launched := by
  refine run_mentions (E := fun s i => Evicts s i pid) (fun s i s' hi hst h => ?_) hr hE
  obtain ⟨c, slot, -, hL, hp⟩ := h
  exact step_pids hst (hi.mem_pids hL.found hp)

theorem lives_begin (hr : Run host h s) (hn : l.pid ∉ pids s.launched)
    (hs' : s'.events = s.events ++ [⟨some l.pid, event_of host slot .loading none now⟩])
    (hpid : slot.pid = some l.pid) (hload : slot.status = .loading) (hE : ¬ Ends s i l.pid) (hV : ¬ Evicts s i l.pid) :
    Lives (h ++ [(s, i)]) s' l slot := by
  have hty : types l.pid s'.events = [.loading] := by
    rw [hs', types_append, types_unborn (run_attributed hr) hn, types_self rfl]; rfl
  have hend : ¬ Ended (h ++ [(s, i)]) l.pid := by
    rw [ended_snoc]
    exact fun h => h.elim (fun h => hn (run_ended_mem hr h)) hE
  refine ⟨fun _ => by rw [hty, hload]; rfl, by rw [hty]; exact .loading, iff_of_false ?_ hend, fun h => ?_,
    fun hn => absurd hpid hn⟩
  · rw [hty]
    intro hx
    obtain ⟨t, ht, htt⟩ := hx
    rw [standing_terminal .loading ht] at htt; cases htt
  · exact ((evicted_snoc.mp h).elim (fun h => hn (run_evicted_mem hr h)) hV).elim

theorem run_lives (hr : Run host h s) :
    ∀ l ∈ s.launched, ∃ slot, s.slots.lookup l.port = some slot ∧ Lives h s l slot := by
  induction hr with
  | nil => intro l hl; cases hl
  | @snoc h s i s' hr hst ih =>
    intro l hl'
    by_cases hl : l ∈ s.launched
    · obtain ⟨slot, hs, hL⟩ := ih l hl
      exact lives_step (run_inv hr) (run_attributed hr) hst hl hs hL
    · cases step_trans hst with
      | @load_start c slot pid ref early li hLa hcs hf =>
        obtain rfl : l = ⟨c.port, pid, ref⟩ := by
          rcases List.mem_append.mp hl' with h | h
          · exact absurd h hl
          · exact List.mem_singleton.mp h
        have hn : pid ∉ pids s.launched := Starts.fresh hst ⟨c, slot, ref, early, rfl, rfl, hLa, hcs⟩
        refine ⟨started c pid ref, AList.lookup_insert _, lives_begin hr hn rfl rfl rfl not_ends_load ?_⟩
        · intro hx
          obtain ⟨c', slot', -, hL', hp'⟩ := hx
          exact hn ((run_inv hr).mem_pids hL'.found hp')
      | _ => exact absurd hl' hl

/-! ## All engines of a run -/

/-- The input is a `mark_up` or a `:DOWN` of an engine that is not the one in the slot. -/
def Foreign (i : Input) (slot : Slot) : Prop :=
  ∃ pid, slot.pid ≠ some pid ∧ ((∃ props now, i = .mark_up pid props now) ∨ ∃ d now, i = .down d now ∧ d.pid = pid)

theorem foreign_ignored (hi : Inv host s) (hst : step host s i = some s') (hs : s.slots.lookup p = some slot)
    (hf : Foreign i slot) : s'.slots.lookup p = some slot ∧ sent p s'.events = sent p s.events := by
  obtain ⟨slot', es, hs', hes, hps⟩ := step_port hi hst hs
  obtain ⟨pid, hne, hf⟩ := hf
  cases hps with
  | same _ => exact ⟨hs', by rw [hes, List.append_nil]⟩
  | start e => rcases hf with ⟨_, _, e'⟩ | ⟨_, _, e', -⟩ <;> rw [e] at e' <;> cases e'
  | clear hC =>
    obtain ⟨_, _, _, e, -⟩ := hC
    rcases hf with ⟨_, _, e'⟩ | ⟨_, _, e', -⟩ <;> rw [e] at e' <;> cases e'
  | mark_up e hp =>
    rcases hf with ⟨_, _, e'⟩ | ⟨_, _, e', -⟩
    · rw [e] at e'; cases e'; exact absurd hp hne
    · rw [e] at e'; cases e'
  | @down d now e hr =>
    rcases hf with ⟨_, _, e'⟩ | ⟨d', _, e', rfl⟩
    · rw [e] at e'; cases e'
    · rw [e] at e'; cases e'
      -- a `:DOWN` with the ref of the slot is that of its engine
      obtain ⟨pid, hR⟩ := hi.resident_ref hs hr
      subst e
      cases step_trans hst with
      | down_noop hd => exact absurd (hi.down_pid hR hd rfl ▸ hR.pid_eq) hne
      | down hd => exact absurd (hi.down_pid hR hd rfl ▸ hR.pid_eq) hne

end

structure LifeOk (h : History) (s : Sys) (l : Launch) : Prop where
  lifecycle : Lifecycle (types l.pid s.events)
  port : ∀ e ∈ s.events, e.pid = some l.pid → e.event.port = l.port
  terminal_iff : (∃ t ∈ types l.pid s.events, t.terminal = true) ↔ Ended h l.pid
  evicted : Evicted h l.pid → ∀ t ∈ types l.pid s.events, t.terminal = false

def ForeignIgnored (host : Host) (h : History) : Prop :=
  ∀ h₁ s₁ i h₂ s₂ p slot, h = h₁ ++ (s₁, i) :: h₂ → step host s₁ i = some s₂ → s₁.slots.lookup p = some slot →
    Foreign i slot → s₂.slots.lookup p = some slot ∧ sent p s₂.events = sent p s₁.events

/-- **The life of an engine.** In every run, each engine is published as loading
once, then at most once as up, then at most once with its end, which is when
its `:DOWN` is handled while it is in its slot; and no cast or `:DOWN` of
another engine reaches a slot. -/
theorem engines_live {host : Host} {h : History} {s : Sys} (hr : Run host h s) :
    (∀ l ∈ s.launched, LifeOk h s l) ∧ ForeignIgnored host h := by
  constructor
  · intro l hl
    obtain ⟨slot, hs, hL⟩ := run_lives hr l hl
    refine ⟨hL.lifecycle, fun e he => (run_inv hr).port_of_pid (run_attributed hr) hl he, hL.ended, fun hv t ht => ?_⟩
    by_contra hne
    exact (hL.evicted hv).2 (hL.ended.mp ⟨t, ht, by simpa using hne⟩)
  · intro h₁ s₁ i h₂ s₂ p slot he hst hs hf
    exact foreign_ignored (run_inv (Machine.Run.split hr he).1) hst hs hf

/-- The `mark_up` of an evicted engine comes late, and its successor crashes. -/
theorem engines_live_swap : ∃ h s, Run one_slot h s ∧
    h.map Prod.snd = [load_ok model_a 0, load_ok model_b 1, .mark_up 0 {} 0, .mark_up 1 {} 0,
      .exit 1 (.other "boom"), .down ⟨1, 1, .other "boom"⟩ 1] ∧
    types 0 s.events = [.loading] ∧ types 1 s.events = [.loading, .up, .down] ∧
    (∀ l ∈ s.launched, LifeOk h s l) ∧ ForeignIgnored one_slot h := by
  have he : ∃ s, Machine.exec (step one_slot) (init one_slot) [load_ok model_a 0, load_ok model_b 1, .mark_up 0 {} 0,
        .mark_up 1 {} 0, .exit 1 (.other "boom"), .down ⟨1, 1, .other "boom"⟩ 1] = some s ∧
      types 0 s.events = [.loading] ∧ types 1 s.events = [.loading, .up, .down] := ⟨_, rfl, rfl, rfl⟩
  obtain ⟨s, he, h₀, h₁⟩ := he
  exact ⟨_, s, .of_exec he, rfl, h₀, h₁, engines_live (.of_exec he)⟩

end AiroAgent.Fleet
