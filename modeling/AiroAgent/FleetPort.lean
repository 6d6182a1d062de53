import AiroAgent.FleetHistory

/-!
# One port of a running Fleet

What a step does to one slot and to the events of its port. `step_port` has a
case for each transition of a slot: a start, an eviction whose start failed, a
`mark_up`, a `:DOWN`. In every other step the slot and its events stay as they
are.
-/

namespace AiroAgent.Fleet

/-- The load evicts what is resident on `p` and then fails to start its own engine. -/
def Clears (s : Sys) (i : Input) (p : Port) : Prop :=
  ∃ c slot reason, i = .load c ∧ c.port = p ∧ Launches s c slot ∧ running slot = true ∧ c.start = .error reason

structure Untouched (s : Sys) (i : Input) (p : Port) (slot : Slot) : Prop where
  start : ∀ pid, ¬ Starts s i p pid
  clear : ¬ Clears s i p
  down : ∀ d now, i = .down d now → slot.ref ≠ some d.ref

inductive PortStep (host : Host) (s : Sys) (i : Input) (p : Port) (slot : Slot) : Slot → List Emission → Prop
  | same : Untouched s i p slot → PortStep host s i p slot slot []
  | start {c pid ref early} : i = .load c → c.port = p → Launches s c slot → c.start = .ok pid ref early →
      PortStep host s i p slot (started c pid ref) [⟨some pid, event_of host (started c pid ref) .loading none c.now⟩]
  | clear : Clears s i p → running slot = true → PortStep host s i p slot (empty_slot p) []
  | mark_up {pid props now} : i = .mark_up pid props now → slot.pid = some pid → slot.status = .loading →
      PortStep host s i p slot { slot with status := .up, props := props }
        [⟨slot.pid, event_of host { slot with status := .up, props := props } .up none now⟩]
  | down {d now} : i = .down d now → slot.ref = some d.ref →
      PortStep host s i p slot (empty_slot p)
        [⟨slot.pid, event_of host slot (terminal_type (decide (p ∈ s.intent)) slot)
          (if p ∈ s.intent then none else some d.reason) now⟩]

def sent (p : Port) (events : List Emission) : List Emission := events.filter (·.event.port = p)

theorem step_events {host : Host} {s s' : Sys} {i : Input} (hst : step host s i = some s') :
    ∃ es, s'.events = s.events ++ es := by
  cases step_trans hst with
  | load_start | mark_up | down => exact ⟨_, rfl⟩
  | _ => exact ⟨[], (List.append_nil _).symm⟩

theorem sent_append (p : Port) (es es' : List Emission) : sent p (es ++ es') = sent p es ++ sent p es' :=
  List.filter_append _ _

theorem sent_self {p : Port} {e : Emission} (h : e.event.port = p) : sent p [e] = [e] := by simp [sent, h]

theorem sent_other {p : Port} {e : Emission} (h : e.event.port ≠ p) : sent p [e] = [] := by simp [sent, h]

def PortMove (host : Host) (s : Sys) (i : Input) (s' : Sys) (p : Port) (slot : Slot) : Prop :=
  ∃ slot' es, s'.slots.lookup p = some slot' ∧ sent p s'.events = sent p s.events ++ es ∧ PortStep host s i p slot slot' es

section
variable {host : Host} {s s' : Sys} {p q : Port} {slot slot' : Slot} {i : Input} {e : Emission}

theorem PortMove.still (hl : s'.slots.lookup p = some slot) (he : sent p s'.events = sent p s.events)
    (hu : Untouched s i p slot) : PortMove host s i s' p slot :=
  ⟨slot, [], hl, by rw [he, List.append_nil], .same hu⟩

theorem Untouched.of_no_load (hi : ∀ c, i = .load c → c.port ≠ p)
    (hd : ∀ d now, i = .down d now → slot.ref ≠ some d.ref) : Untouched s i p slot := by
  refine ⟨?_, ?_, hd⟩
  · intro pid h
    obtain ⟨c, _, _, _, e, hp, -⟩ := h
    exact hi c e hp
  · intro h
    obtain ⟨c, _, _, e, hp, -⟩ := h
    exact hi c e hp

theorem Untouched.of_load {c : LoadCall} (hS : ∀ pid, ¬ Starts s (.load c) p pid) (hC : ¬ Clears s (.load c) p) :
    Untouched s (.load c) p slot :=
  ⟨hS, hC, fun _ _ e => by cases e⟩

theorem Untouched.of_other_load {c : LoadCall} (hp : p ≠ c.port) : Untouched s (.load c) p slot :=
  .of_no_load (fun _ e hc => by cases e; exact hp hc.symm) fun _ _ e => by cases e

theorem lookup_insert_other (hl : s.slots.lookup p = some slot) (hq : p ≠ q) :
    (s.slots.insert q slot').lookup p = some slot := by
  rw [AList.lookup_insert_ne hq]; exact hl

theorem sent_snoc_other (h : e.event.port ≠ p) : sent p (s.events ++ [e]) = sent p s.events := by
  rw [sent_append, sent_other h, List.append_nil]

theorem sent_snoc_self (h : e.event.port = p) : sent p (s.events ++ [e]) = sent p s.events ++ [e] := by
  rw [sent_append, sent_self h]

theorem step_port (hi : Inv host s) (hst : step host s i = some s') (hl : s.slots.lookup p = some slot) :
    PortMove host s i s' p slot := by
  cases step_trans hst with
  | load_noop hn =>
    refine .still hl rfl (.of_load ?_ ?_)
    · intro pid hx
      obtain ⟨_, slot', _, _, e, -, hL, -⟩ := hx
      cases e; exact hn slot' hL
    · intro hx
      obtain ⟨_, slot', _, e, -, hL, -⟩ := hx
      cases e; exact hn slot' hL
  | @load_start c slot₀ pid ref early l hL hs hf =>
    by_cases hp : p = c.port
    · subst hp
      have e : slot = slot₀ := Option.some.inj (hl.symm.trans hL.found)
      subst e
      exact ⟨_, _, AList.lookup_insert _, sent_snoc_self rfl, .start rfl rfl hL hs⟩
    · exact .still (lookup_insert_other hl hp) (sent_snoc_other fun e => hp e.symm) (.of_other_load hp)
  | @load_fail c slot₀ reason l hL hs =>
    by_cases hp : p = c.port
    · subst hp
      have e : slot = slot₀ := Option.some.inj (hl.symm.trans hL.found)
      subst e
      cases hr : running slot with
      | true =>
        exact ⟨_, [], AList.lookup_insert _, (List.append_nil _).symm, .clear ⟨c, slot, reason, rfl, rfl, hL, hr, hs⟩ hr⟩
      | false =>
        -- nothing was resident: the slot was empty, and still is
        have he : slot = empty_slot c.port := by
          rcases hi.slot _ _ hl with h | ⟨pid, ref, hR⟩
          · exact h
          · rw [running, hR.pid_eq] at hr; cases hr
        refine .still (by rw [he]; exact AList.lookup_insert _) rfl (.of_load ?_ ?_)
        · intro _ hx
          obtain ⟨_, _, _, _, e, -, -, hs'⟩ := hx
          cases e; rw [hs] at hs'; cases hs'
        · intro hx
          obtain ⟨_, slot', _, e, -, hL', hr', -⟩ := hx
          cases e
          have e : slot' = slot := Option.some.inj (hL'.found.symm.trans hl)
          rw [e, hr] at hr'; cases hr'
    · exact .still (lookup_insert_other hl hp) rfl (.of_other_load hp)
  | @mark_up pid props now port slot₀ hk hf hs =>
    obtain ⟨hl₀, hp₀⟩ := find_by_pid_some hf
    have hport := (hi.slot _ _ hl₀).port_eq
    by_cases hp : p = port
    · subst hp
      have e : slot = slot₀ := Option.some.inj (hl.symm.trans hl₀)
      subst e
      exact ⟨_, _, AList.lookup_insert _, sent_snoc_self hport, .mark_up rfl hp₀ hs⟩
    · refine .still (lookup_insert_other hl hp) (sent_snoc_other fun e => hp (e.symm.trans hport)) ?_
      exact .of_no_load (fun _ e => by cases e) fun _ _ e => by cases e
  | @down_noop d now hd hf =>
    refine .still hl rfl (.of_no_load (fun _ e => by cases e) fun d' _ e => ?_)
    cases e
    exact find_by_ref_none hf hl
  | @down d now port slot₀ hd hf =>
    obtain ⟨hl₀, hr₀⟩ := find_by_ref_some hf
    have hport := (hi.slot _ _ hl₀).port_eq
    by_cases hp : p = port
    · subst hp
      have e : slot = slot₀ := Option.some.inj (hl.symm.trans hl₀)
      subst e
      exact ⟨_, _, AList.lookup_insert _, sent_snoc_self hport, .down rfl hr₀⟩
    · refine .still (lookup_insert_other hl hp) (sent_snoc_other fun e => hp (e.symm.trans hport)) ?_
      refine .of_no_load (fun _ e => by cases e) fun d' _ e hr => ?_
      cases e
      exact hp (hi.ref_inj hl hl₀ hr hr₀)
  | unload_noop | unload | mark_up_noop | exit | bind | release =>
    exact .still hl rfl (.of_no_load (fun _ e => by cases e) fun _ _ e => by cases e)

end

end AiroAgent.Fleet
