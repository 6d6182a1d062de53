import AiroAgent.Lib.Replay
import AiroAgent.FleetPort

/-!
# The events and the register

Airo learns of a slot in two ways: from the list `slots/0` returns, and from the
events pushed since. Replaying the events gives every slot as the list has it,
save the slots a load emptied by evicting what was there and failing to start:
that transition is not published.
-/

namespace AiroAgent.Fleet

structure PortView where
  status : Status
  resident_model : Option String := none
  revision : Option String := none
  ctx : Val := .nil
  parallel : Val := .nil
  ctx_total : Val := .nil
  engine_build : Val := .nil
  cluster_id : Option String := none
  tp_rank : Option Int := none
  tp_size : Option Int := none

def view_of_info (info : SlotInfo) : PortView where
  status := info.status
  resident_model := info.resident_model
  revision := info.revision
  ctx := info.ctx
  parallel := info.parallel
  ctx_total := info.ctx_total
  engine_build := info.engine_build
  cluster_id := info.cluster_id
  tp_rank := info.tp_rank
  tp_size := info.tp_size

def filled_view (status : Status) (e : Event) : PortView where
  status := status
  resident_model := e.resident_model
  revision := e.revision
  ctx := e.ctx
  parallel := e.parallel
  ctx_total := e.ctx_total
  engine_build := e.engine_build
  cluster_id := e.cluster_id
  tp_rank := e.tp_rank
  tp_size := e.tp_size

def view_of_event (e : Event) : PortView :=
  match e.type with
  | .loading => filled_view .loading e
  | .up => filled_view .up e
  | .down | .failed | .unloaded => { status := .empty }

def replayed (s : Sys) : Port → PortView :=
  Replay.replay (·.event.port) (fun e => view_of_event e.event) (fun _ => { status := .empty }) s.events

def reported (infos : List SlotInfo) (p : Port) : Option PortView := (infos.find? (·.port == p)).map view_of_info

/-- A load has emptied `p` by evicting its engine and failing to start another,
and nothing has been started there since. -/
def Cleared (h : History) (p : Port) : Prop :=
  ∃ h₁ x h₂, h = h₁ ++ x :: h₂ ∧ Clears x.1 x.2 p ∧ ∀ y ∈ h₂, ∀ pid, ¬ Starts y.1 y.2 p pid

theorem cleared_snoc {h : History} {s : Sys} {i : Input} {p : Port} :
    Cleared (h ++ [(s, i)]) p ↔ Clears s i p ∨ (Cleared h p ∧ ∀ pid, ¬ Starts s i p pid) := by
  constructor
  · intro hz
    obtain ⟨h₁, x, h₂, e, hx, hn⟩ := hz
    rcases Machine.snoc_split e with ⟨-, -, rfl⟩ | ⟨h₃, rfl, he⟩
    · exact .inl hx
    · exact .inr ⟨⟨h₁, x, h₃, he, hx, fun y hy => hn y (by simp [hy])⟩, hn (s, i) (by simp)⟩
  · intro hz
    rcases hz with hc | ⟨⟨h₁, x, h₂, rfl, hx, hn⟩, hs⟩
    · exact ⟨h, (s, i), [], rfl, hc, by simp⟩
    · refine ⟨h₁, x, h₂ ++ [(s, i)], by simp, hx, fun y hy => ?_⟩
      rcases List.mem_append.mp hy with hy | hy
      · exact hn y hy
      · rw [List.mem_singleton] at hy; subst hy; exact hs

theorem not_cleared_snoc {h : History} {s : Sys} {i : Input} {p : Port} (hi : ∀ c, i ≠ .load c) (hn : ¬ Cleared h p) :
    ¬ Cleared (h ++ [(s, i)]) p := by
  rw [cleared_snoc]
  intro hx
  rcases hx with ⟨c, _, _, e, -⟩ | ⟨hc, -⟩
  · exact hi c e
  · exact hn hc

section
variable {host : Host} {s s' : Sys} {p : Port} {slot : Slot} {h : History}

theorem view_of_loading (hs : slot.status = .loading) (reason : Option Reason) (now : Time) :
    view_of_event (event_of host slot .loading reason now) = view_of_info (slot_info host slot) := by
  simp only [view_of_event, event_of, filled_view, view_of_info, slot_info, hs, effective_parallel]

theorem view_of_up (hs : slot.status = .up) (reason : Option Reason) (now : Time) :
    view_of_event (event_of host slot .up reason now) = view_of_info (slot_info host slot) := by
  simp only [view_of_event, event_of, filled_view, view_of_info, slot_info, hs, effective_parallel]

theorem view_of_terminal (expected : Bool) (slot' : Slot) (reason : Option Reason) (now : Time) :
    view_of_event (event_of host slot (terminal_type expected slot') reason now) = { status := .empty } := by
  unfold terminal_type
  split
  · rfl
  · split <;> rfl

theorem view_of_empty (p : Port) : view_of_info (slot_info host (empty_slot p)) = { status := .empty } := rfl

theorem replayed_eq_of_sent (h : sent p s'.events = sent p s.events) : replayed s' p = replayed s p :=
  Replay.replay_eq_of_filter h

theorem replayed_snoc_of_sent {e : Emission} (h : sent p s'.events = sent p s.events ++ [e]) :
    replayed s' p = view_of_event e.event :=
  Replay.replay_last h

/-- The replayed view of a slot is right, or the slot was cleared and is still thought to be taken. -/
def ReplayOk (host : Host) (h : History) (s : Sys) (p : Port) (slot : Slot) : Prop :=
  (¬ Cleared h p ∧ replayed s p = view_of_info (slot_info host slot)) ∨
    (Cleared h p ∧ slot = empty_slot p ∧ (replayed s p).status ≠ .empty)

theorem replay_ok_step (hi : Inv host s) {i : Input} (hst : step host s i = some s') (hl : s.slots.lookup p = some slot)
    (ih : ReplayOk host h s p slot) :
    ∃ slot', s'.slots.lookup p = some slot' ∧ ReplayOk host (h ++ [(s, i)]) s' p slot' := by
  obtain ⟨slot', es, hl', hes, hps⟩ := step_port hi hst hl
  refine ⟨slot', hl', ?_⟩
  have hport := (hi.slot _ _ hl).port_eq
  cases hps with
  | same hu =>
    rw [List.append_nil] at hes
    have hc : Cleared (h ++ [(s, i)]) p ↔ Cleared h p := by
      rw [cleared_snoc]; simp [hu.clear, hu.start]
    unfold ReplayOk
    rw [hc, replayed_eq_of_sent hes]
    exact ih
  | @start c pid ref early e hp hL hs =>
    subst hp
    refine .inl ⟨?_, ?_⟩
    · rw [cleared_snoc]
      intro hx
      rcases hx with ⟨_, _, _, e', -, -, -, hs'⟩ | ⟨-, hn⟩
      · rw [e] at e'; cases e'; rw [hs] at hs'; cases hs'
      · exact hn pid ⟨c, slot, ref, early, e, rfl, hL, hs⟩
    · rw [replayed_snoc_of_sent hes]
      exact view_of_loading rfl none c.now
  | clear hC hr =>
    rw [List.append_nil] at hes
    rcases ih with ⟨-, hv⟩ | ⟨-, rfl, -⟩
    · refine .inr ⟨cleared_snoc.mpr (.inl hC), rfl, ?_⟩
      rw [replayed_eq_of_sent hes, hv]
      show slot.status ≠ .empty
      intro he
      rw [running, ((hi.slot _ _ hl).empty_iff.mp he).1] at hr
      cases hr
    · cases hr
  | @mark_up pid props now e hpid hs =>
    rcases ih with ⟨hn, -⟩ | ⟨-, rfl, -⟩
    · refine .inl ⟨not_cleared_snoc (fun c hc => by cases e.symm.trans hc) hn, ?_⟩
      rw [replayed_snoc_of_sent hes]
      exact view_of_up rfl none now
    · cases hpid
  | @down d now e hr =>
    rcases ih with ⟨hn, -⟩ | ⟨-, rfl, -⟩
    · refine .inl ⟨not_cleared_snoc (fun c hc => by cases e.symm.trans hc) hn, ?_⟩
      rw [replayed_snoc_of_sent hes, view_of_empty]
      exact view_of_terminal _ slot _ now
    · cases hr

theorem run_replay_ok (hr : Run host h s) : ∀ p slot, s.slots.lookup p = some slot → ReplayOk host h s p slot := by
  induction hr with
  | nil =>
    intro p slot hl
    rcases (inv_init host).slot p slot hl with rfl | ⟨pid, ref, hR⟩
    · refine .inl ⟨?_, rfl⟩
      intro hx
      obtain ⟨h₁, x, h₂, e, -⟩ := hx
      simp at e
    · exact absurd hR.launched (by simp [init])
  | @snoc h s i s' hr hst ih =>
    intro p slot' hl'
    have hi := run_inv hr
    have hk : p ∈ s.slots := (hi.keys p).mpr (((inv_step hi hst).keys p).mp (AList.lookup_isSome.mp (by rw [hl']; rfl)))
    obtain ⟨slot, hl⟩ := Option.isSome_iff_exists.mp (AList.lookup_isSome.mpr hk)
    obtain ⟨slot'', hl'', hok⟩ := replay_ok_step hi hst hl (ih p slot hl)
    rw [hl'] at hl''; cases hl''
    exact hok

theorem reported_own (hi : Inv host s) (hl : s.slots.lookup p = some slot) (peers : List SlotInfo) :
    reported (handle_call_slots host peers s) p = some (view_of_info (slot_info host slot)) := by
  have hf : s.slots.entries.find? (fun e => (slot_info host e.2).port == p) = some ⟨p, slot⟩ := by
    cases hf : s.slots.entries.find? (fun e => (slot_info host e.2).port == p) with
    | none =>
      have := List.find?_eq_none.mp hf ⟨p, slot⟩ (mem_entries_iff.mpr hl)
      exact absurd (hi.slot _ _ hl).port_eq (by simpa [slot_info] using this)
    | some e =>
      obtain ⟨q, slot'⟩ := e
      have hl' : s.slots.lookup q = some slot' := mem_entries_iff.mp (List.mem_of_find?_eq_some hf)
      have hq : slot'.port = p := by simpa [slot_info] using List.find?_some hf
      obtain rfl : q = p := (hi.slot _ _ hl').port_eq.symm.trans hq
      rw [hl] at hl'; cases hl'; rfl
  unfold reported handle_call_slots own_slots
  rw [List.find?_append, List.find?_map]
  show (Option.map view_of_info (((s.slots.entries.find? fun e => (slot_info host e.2).port == p).map _).or _)) = _
  rw [hf]; rfl

end

/-- Replaying the events gives for the port what any answer of `slots/0` gives. -/
def Agrees (host : Host) (s : Sys) (p : Port) : Prop :=
  ∀ peers, reported (handle_call_slots host peers s) p = some (replayed s p)

theorem agrees_iff {host : Host} {h : History} {s : Sys} {p : Port} (hr : Run host h s) (hp : p ∈ host.slots) :
    Agrees host s p ↔ ¬ Cleared h p := by
  have hi := run_inv hr
  obtain ⟨slot, hl⟩ := Option.isSome_iff_exists.mp (AList.lookup_isSome.mpr ((hi.keys p).mpr hp))
  rcases run_replay_ok hr p slot hl with ⟨hn, hv⟩ | ⟨hc, rfl, hne⟩
  · refine iff_of_true (fun peers => ?_) hn
    rw [reported_own hi hl, hv]
  · refine iff_of_false (fun ha => hne ?_) fun hn => hn hc
    have := (reported_own hi hl []).symm.trans (ha [])
    rw [← Option.some.inj this]
    rfl

/-- **Events against the register.** After a run, the events published so far give
every configured port as `slots/0` reports it, if and only if no port was
cleared by a failed load and left so. -/
theorem replay_agrees_iff {host : Host} {h : History} {s : Sys} (hr : Run host h s) :
    (∀ p ∈ host.slots, Agrees host s p) ↔ ∀ p ∈ host.slots, ¬ Cleared h p :=
  forall₂_congr fun _ hp => agrees_iff hr hp

/-- A load of model a comes up and is swapped for model b. -/
theorem replay_agrees_iff_swap : ∃ h s, Run one_slot h s ∧
    h.map Prod.snd = [load_ok model_a 0, .mark_up 0 {} 0, load_ok model_b 1] ∧
    ((∀ p ∈ one_slot.slots, Agrees one_slot s p) ↔ ∀ p ∈ one_slot.slots, ¬ Cleared h p) := by
  have he : ∃ s, Machine.exec (step one_slot) (init one_slot)
      [load_ok model_a 0, .mark_up 0 {} 0, load_ok model_b 1] = some s := ⟨_, rfl⟩
  obtain ⟨s, he⟩ := he
  exact ⟨_, s, .of_exec he, rfl, replay_agrees_iff (.of_exec he)⟩

/-- Model a is evicted for a model b that does not start. The slot is empty, and
the last event of its port still has a in it. -/
theorem failed_swap_disagrees : ∃ h s, Run one_slot h s ∧
    h.map Prod.snd = [load_ok model_a 0, .mark_up 0 {} 0,
      .load { model := model_b, port := 8081, profile := ∅, start := .error (.other "eacces") }] ∧
    (reported (handle_call_slots one_slot [] s) 8081).map (·.status) = some .empty ∧
    ((replayed s 8081).status, (replayed s 8081).resident_model) = (.up, some "a") ∧
    ¬ ∀ p ∈ one_slot.slots, Agrees one_slot s p := by
  have he : ∃ s, Machine.exec (step one_slot) (init one_slot) [load_ok model_a 0, .mark_up 0 {} 0,
        .load { model := model_b, port := 8081, profile := ∅, start := .error (.other "eacces") }] = some s ∧
      (reported (handle_call_slots one_slot [] s) 8081).map (·.status) = some .empty ∧
      ((replayed s 8081).status, (replayed s 8081).resident_model) = (.up, some "a") := ⟨_, rfl, rfl, rfl⟩
  obtain ⟨s, he, hrep, hv⟩ := he
  refine ⟨_, s, .of_exec he, rfl, hrep, hv, fun ha => ?_⟩
  rw [ha 8081 (by simp [one_slot]) []] at hrep
  simp only [Prod.mk.injEq] at hv
  simp [hv.1] at hrep

end AiroAgent.Fleet
