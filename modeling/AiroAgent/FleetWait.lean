import AiroAgent.FleetLife

/-!
# Waiting for the port before a start

An engine's OS process may hold its port for a while after the engine is gone.
`do_load` waits for the port on one path only: when the slot still holds the
engine. After an unload or a crash whose `:DOWN` has been handled the slot is
empty, and the next load starts at once, whatever still listens. The wait itself
takes a connect that fails for a free port, whatever made it fail.
-/

namespace AiroAgent.Fleet

theorem engine_listens_iff {port : Port} {s : Sys} : engine_listens port s = true ↔
    ∃ l ∈ s.launched, l.port = port ∧ l.pid ∈ s.listening := by
  simp [engine_listens]

/-! ## A misread poll -/

/-- A connect of the wait fails, before the last try, while an engine that none of the
sleeps so far has released still listens. -/
def Misread (port : Port) (tries : Nat) (polls : List Poll) (s : Sys) : Prop :=
  ∃ k poll, k + 1 < tries ∧ polls[k]? = some poll ∧ poll.failed = true ∧
    ∃ l ∈ s.launched, l.port = port ∧ l.pid ∈ s.listening ∧ ∀ p ∈ polls.take k, l.pid ∉ p.released

theorem Misread.listens {port : Port} {tries : Nat} {polls : List Poll} {s : Sys} (hm : Misread port tries polls s) :
    1 < tries ∧ engine_listens port s = true := by
  obtain ⟨k, _, hk, -, -, l, hl, hp, hli, -⟩ := hm
  exact ⟨by omega, engine_listens_iff.mpr ⟨l, hl, hp, hli⟩⟩

theorem misread_nil (port : Port) (tries : Nat) (s : Sys) : ¬ Misread port tries [] s := by
  intro ⟨_, _, _, hk, _⟩
  simp at hk

theorem misread_cons (port : Port) (tries : Nat) (poll : Poll) (polls : List Poll) (s : Sys) :
    Misread port (tries + 1) (poll :: polls) s ↔ (0 < tries ∧ poll.failed = true ∧ engine_listens port s = true) ∨
      Misread port tries polls { s with listening := s.listening \ poll.released } := by
  rw [engine_listens_iff]
  constructor
  · rintro ⟨k, p, hk, hp, hf, l, hl, hport, hli, hrel⟩
    cases k with
    | zero =>
      cases hp
      exact .inl ⟨by omega, hf, l, hl, hport, hli⟩
    | succ k =>
      rw [List.take_succ_cons, List.forall_mem_cons] at hrel
      exact .inr ⟨k, p, by omega, hp, hf, l, hl, hport, Finset.mem_sdiff.mpr ⟨hli, hrel.1⟩, hrel.2⟩
  · rintro (⟨ht, hf, l, hl, hport, hli⟩ | ⟨k, p, hk, hp, hf, l, hl, hport, hli, hrel⟩)
    · exact ⟨0, poll, by omega, rfl, hf, l, hl, hport, hli, by simp⟩
    · obtain ⟨hli, hnot⟩ := Finset.mem_sdiff.mp hli
      exact ⟨k + 1, p, by omega, hp, hf, l, hl, hport, hli, List.forall_mem_cons.mpr ⟨hnot, hrel⟩⟩

/-- What the wait is for, unless a poll is misread: the port is polled to the limit, or
no engine listens on it any more. -/
theorem await_port_free_ends (port : Port) (tries : Nat) (polls : List Poll) (s : Sys) :
    ((await_port_free port tries polls s).1 = tries ∨
      engine_listens port (await_port_free port tries polls s).2 = false) ↔ ¬ Misread port tries polls s := by
  induction tries generalizing polls s with
  | zero => exact iff_of_true (.inl rfl) fun hm => absurd hm.listens.1 (by omega)
  | succ tries ih =>
    rw [await_port_free]
    by_cases hb : (!(polls.head?.getD {}).failed && ((polls.head?.getD {}).foreign || engine_listens port s)) = true
    · -- The connect succeeds: one more try, after the sleep.
      simp only [hb, if_true, Nat.add_right_cancel_iff]
      rw [ih]
      cases polls with
      | nil => exact iff_of_true (misread_nil port tries _) (misread_nil port (tries + 1) s)
      | cons poll polls =>
        have hf : poll.failed = false := by simpa using (Bool.and_eq_true_iff.mp hb).1
        rw [misread_cons]
        simp [hf]
    · -- The connect fails: the wait is over.
      simp only [hb, Bool.false_eq_true, if_false]
      cases hl : engine_listens port s with
      | false => exact iff_of_true (.inr rfl) fun hm => absurd (hl.symm.trans hm.listens.2) (by decide)
      | true =>
        cases polls with
        | nil => simp [hl] at hb
        | cons poll polls =>
          have hf : poll.failed = true := by simpa [hl] using hb
          rw [misread_cons]
          cases tries with
          | zero =>
            refine iff_of_true (.inl rfl) ?_
            rintro (⟨h, -, -⟩ | hm)
            · exact absurd h (by omega)
            · exact absurd hm.listens.1 (by omega)
          | succ tries => simp [hf, hl]

section
variable {host : Host} {h : History} {s : Sys} {c : LoadCall} {slot : Slot}

/-- The guarantee for one start on the port of `c`: when it comes to `start_child`,
no earlier engine of the port listens, or the port was polled to the limit. -/
def Awaited (host : Host) (c : LoadCall) (slot : Slot) (s : Sys) : Prop :=
  engine_listens c.port (make_room host c slot s).2 = false ∨ (make_room host c slot s).1 = some host.port_free_tries

theorem misread_free_running (port : Port) (tries : Nat) (polls : List Poll) (slot : Slot) (s : Sys) :
    Misread port tries polls (free_running slot s) ↔ Misread port tries polls s := by
  rw [free_running_eq]
  exact Iff.rfl

theorem awaited_of_running (h : running slot = true) :
    Awaited host c slot s ↔ ¬ Misread c.port host.port_free_tries c.polls s := by
  unfold Awaited make_room
  rw [if_pos h, or_comm, ← misread_free_running c.port _ c.polls slot, ← await_port_free_ends]
  simp

theorem awaited_of_not_running (h : running slot = false) : Awaited host c slot s ↔ engine_listens c.port s = false := by
  unfold Awaited make_room
  simp [h]

/-- The engine left its slot, because its `:DOWN` was handled or because a load
evicted it, and its OS process still listens on `port`. -/
def Lingers (h : History) (s : Sys) (port : Port) (l : Launch) : Prop :=
  l ∈ s.launched ∧ l.port = port ∧ l.pid ∈ s.listening ∧ (Ended h l.pid ∨ Evicted h l.pid)

theorem listens_empty_iff (hr : Run host h s) {p : Port} (hl : s.slots.lookup p = some slot) (hn : running slot = false) :
    engine_listens p s = false ↔ ∀ l, ¬ Lingers h s p l := by
  rw [← Bool.not_eq_true, engine_listens_iff]
  constructor
  · intro hno l hx
    obtain ⟨hla, hp, hli, -⟩ := hx
    exact hno ⟨l, hla, hp, hli⟩
  · intro hno hx
    obtain ⟨l, hla, rfl, hli⟩ := hx
    obtain ⟨slot', hl', hL⟩ := run_lives hr l hla
    rw [hl] at hl'; cases hl'
    refine hno l ⟨hla, rfl, hli, hL.gone fun hp => ?_⟩
    rw [running, hp] at hn; cases hn

/-- The start of `c` does not meet an engine unawares: over a resident one, no poll of its
wait is misread; in an empty slot, none that left it lingers. -/
structure MissesEngines (host : Host) (h : History) (s : Sys) (c : LoadCall) (slot : Slot) : Prop where
  resident : running slot = true → ¬ Misread c.port host.port_free_tries c.polls s
  empty : running slot = false → ∀ l, ¬ Lingers h s c.port l

theorem awaited_iff (hr : Run host h s) (hL : Launches s c slot) :
    Awaited host c slot s ↔ MissesEngines host h s c slot := by
  cases hn : running slot with
  | true =>
    rw [awaited_of_running hn]
    exact ⟨fun h => ⟨fun _ => h, fun he => absurd (hn.symm.trans he) (by decide)⟩, fun h => h.resident hn⟩
  | false =>
    rw [awaited_of_not_running hn, listens_empty_iff hr hL.found hn]
    exact ⟨fun h => ⟨fun ht => absurd (hn.symm.trans ht) (by decide), fun _ => h⟩, fun h => h.empty hn⟩

end

def StartsAwaited (host : Host) (h : History) : Prop :=
  ∀ h₁ s₁ c h₂ slot pid ref early, h = h₁ ++ (s₁, .load c) :: h₂ → Launches s₁ c slot → c.start = .ok pid ref early →
    Awaited host c slot s₁

def StartsMissEngines (host : Host) (h : History) : Prop :=
  ∀ h₁ s₁ c h₂ slot pid ref early, h = h₁ ++ (s₁, .load c) :: h₂ → Launches s₁ c slot → c.start = .ok pid ref early →
    MissesEngines host h₁ s₁ c slot

/-- **Ports at a start.** Every start of a run finds its port free of earlier engines,
or has polled it to the limit, if and only if no start fills an empty slot while
an engine that has left it lingers on the port, and none over a resident engine
misreads a poll of its wait. -/
theorem starts_awaited_iff {host : Host} {h : History} {s : Sys} (hr : Run host h s) :
    StartsAwaited host h ↔ StartsMissEngines host h := by
  refine forall_congr' fun h₁ => forall_congr' fun s₁ => forall_congr' fun c => forall_congr' fun h₂ => ?_
  refine forall_congr' fun slot => forall_congr' fun pid => forall_congr' fun ref => forall_congr' fun early => ?_
  refine forall_congr' fun he => forall_congr' fun hL => forall_congr' fun _ => ?_
  exact awaited_iff (Machine.Run.split hr he).1 hL

/-- A swap while the evicted engine still listens. -/
theorem starts_awaited_iff_swap : ∃ h s, Run one_slot h s ∧
    h.map Prod.snd = [load_ok model_a 0, .bind 0, .mark_up 0 {} 0, load_ok model_b 1] ∧
    (StartsAwaited one_slot h ↔ StartsMissEngines one_slot h) := by
  have he : ∃ s, Machine.exec (step one_slot) (init one_slot)
      [load_ok model_a 0, .bind 0, .mark_up 0 {} 0, load_ok model_b 1] = some s := ⟨_, rfl⟩
  obtain ⟨s, he⟩ := he
  exact ⟨_, s, .of_exec he, rfl, starts_awaited_iff (.of_exec he)⟩

/-- Model a is unloaded and its `:DOWN` handled while its process still holds the
port: model b is started at once, without a single poll. -/
theorem load_after_unload_not_awaited : ∃ h s, Run one_slot h s ∧
    h.map Prod.snd = [load_ok model_a 0, .bind 0, .mark_up 0 {} 0, .unload 8081 false, .down ⟨0, 0, .shutdown⟩ 1,
      load_ok model_b 1] ∧
    one_slot.port_free_tries = 150 ∧ ¬ StartsAwaited one_slot h := by
  let tr : List Input := [load_ok model_a 0, .bind 0, .mark_up 0 {} 0, .unload 8081 false, .down ⟨0, 0, .shutdown⟩ 1]
  let c : LoadCall := { model := model_b, port := 8081, profile := ∅, start := .ok 1 1 none }
  have he : ∃ s s', Machine.exec (step one_slot) (init one_slot) tr = some s ∧ step one_slot s (.load c) = some s' ∧
      s.slots.lookup 8081 = some (empty_slot 8081) ∧ engine_listens 8081 s = true := ⟨_, _, rfl, rfl, rfl, by decide⟩
  obtain ⟨s, s', he, hst, hl, hlis⟩ := he
  refine ⟨_, s', (Machine.Run.of_exec he).snoc hst, rfl, rfl, fun ha => ?_⟩
  have hL : Launches s c (empty_slot 8081) := ⟨rfl, hl, rfl⟩
  have := ha _ s c [] (empty_slot 8081) 1 1 none rfl hL rfl
  rw [awaited_of_not_running rfl] at this
  exact absurd (hlis.symm.trans this) (by decide)

end AiroAgent.Fleet
