import AiroAgent.Lib.Replay
import AiroAgent.PeerTable
import Mathlib.Data.List.Chain

/-!
# The events of peer ranks and their table

A poll replaces the table, and publishes which ports came and which went. A port
that stays is not looked at again, whatever rank is now on it.
-/

namespace AiroAgent.PeerRanks

/-! ## What is told of a port -/

structure RankView where
  cluster_id : Option String
  tp_rank : Option Int
  tp_size : Option Int
  resident_model : Option String
  deriving DecidableEq

def rank_view (slot : SlotInfo) : RankView where
  cluster_id := slot.cluster_id
  tp_rank := slot.tp_rank
  tp_size := slot.tp_size
  resident_model := slot.resident_model

-- No poll publishes another type.
def view_of_event (e : Event) : Option RankView :=
  match e.type with
  | .up => some {
      cluster_id := e.cluster_id
      tp_rank := e.tp_rank
      tp_size := e.tp_size
      resident_model := e.resident_model }
  | _ => none

def reported (infos : List SlotInfo) (p : Port) : Option RankView := (infos.find? (·.port == p)).map rank_view

def replayed (events : List Event) : Port → Option RankView :=
  Replay.replay (·.port) view_of_event (fun _ => none) events

/-! ## Polls -/

/-- What `discover` gives at one poll, and when. -/
abbrev Discovery := List SlotInfo × Time

def poll_next (seen : Table × List Event) (d : Discovery) : Table × List Event :=
  ((poll d.1 d.2 seen.1).1, seen.2 ++ (poll d.1 d.2 seen.1).2)

def polls (ds : List Discovery) : Table × List Event := ds.foldl poll_next (.empty, [])

/-- Of the slots on one port the last one counts. -/
def claimed (found : List SlotInfo) (p : Port) : Option SlotInfo := found.reverse.find? (·.port == p)

/-- No port has another rank on it than before. -/
def Keeps (found found' : List SlotInfo) : Prop :=
  ∀ p s s', claimed found p = some s → claimed found' p = some s' → rank_view s' = rank_view s

/-- The events tell what `slots/0` does, after every poll; and a poll that finds the slots of the one before is silent. -/
structure Replays (ds : List Discovery) : Prop where
  agrees : ∀ past, past <+: ds → ∀ p, replayed (polls past).2 p = reported (slots (polls past).1) p
  silent : ∀ past d d', past ++ [d, d'] <+: ds → (∀ s, s ∈ d'.1 ↔ s ∈ d.1) → (poll d'.1 d'.2 (polls (past ++ [d])).1).2 = []

variable {found found' : List SlotInfo} {t : Table} {p : Port} {now : Time} {ds : List Discovery} {d : Discovery}

/-! ## The table by port -/

theorem lookup_foldl_put (found : List SlotInfo) (t : Table) :
    (found.foldl (fun t s => t.put s) t).slots.lookup p = (claimed found p).or (t.slots.lookup p) := by
  induction found generalizing t with
  | nil => rfl
  | cons s found ih =>
    rw [List.foldl_cons, ih, claimed, claimed, List.reverse_cons, List.find?_append, Option.or_assoc]
    congr 1
    by_cases hp : s.port = p
    · subst hp
      simp [Table.put, AList.lookup_insert]
    · simp [Table.put, hp, AList.lookup_insert_ne (Ne.symm hp)]

theorem lookup_of : (Table.of found).slots.lookup p = claimed found p := by
  rw [Table.of, lookup_foldl_put, Table.empty, AList.lookup_empty, Option.or_none]

theorem reported_slots : reported (slots t) p = (t.slots.lookup p).map rank_view := by
  unfold reported
  congr 1
  cases hf : (slots t).find? (·.port == p) with
  | some s =>
    have hs : t.slots.lookup s.port = some s := mem_slots.mp (List.mem_of_find?_eq_some hf)
    have hp : s.port = p := by simpa using List.find?_some hf
    rw [← hs, hp]
  | none =>
    rw [List.find?_eq_none] at hf
    cases hl : t.slots.lookup p with
    | none => rfl
    | some s =>
      have hp : s.port = p := t.keyed p s hl
      refine absurd (beq_iff_eq.mpr hp) (hf s (mem_slots.mpr ?_))
      rw [hp, hl]

theorem mem_iff_lookup : p ∈ t.slots ↔ ∃ s, t.slots.lookup p = some s := by
  rw [← AList.lookup_isSome, Option.isSome_iff_exists]

/-! ## One poll -/

theorem touches_poll : Replay.Touches (·.port) (poll found now t).2 p ↔ ¬ (p ∈ t.slots ↔ p ∈ (Table.of found).slots) := by
  unfold Replay.Touches poll
  simp only [List.mem_append, List.mem_map, mem_without]
  refine ⟨fun h => ?_, fun h => ?_⟩
  · obtain ⟨e, ⟨s, ⟨hs, hn⟩, rfl⟩ | ⟨s, ⟨hs, hn⟩, rfl⟩, rfl⟩ := h
    · have : s.port ∈ (Table.of found).slots := mem_iff_lookup.mpr ⟨s, hs⟩
      simp [event_of, hn, this]
    · have : s.port ∈ t.slots := mem_iff_lookup.mpr ⟨s, hs⟩
      simp [event_of, hn, this]
  · by_cases ht : p ∈ t.slots
    · have hn : p ∉ (Table.of found).slots := by simpa [ht] using h
      obtain ⟨s, hs⟩ := mem_iff_lookup.mp ht
      have hp : s.port = p := t.keyed p s hs
      subst hp
      exact ⟨_, .inr ⟨s, ⟨hs, hn⟩, rfl⟩, rfl⟩
    · have hf : p ∈ (Table.of found).slots := by simpa [ht] using h
      obtain ⟨s, hs⟩ := mem_iff_lookup.mp hf
      have hp : s.port = p := (Table.of found).keyed p s hs
      subst hp
      exact ⟨_, .inl ⟨s, ⟨hs, ht⟩, rfl⟩, rfl⟩

theorem view_of_poll : ∀ e ∈ (poll found now t).2, e.port = p → view_of_event e = reported (slots (Table.of found)) p := by
  intro e he hp
  rw [reported_slots]
  unfold poll at he
  simp only [List.mem_append, List.mem_map, mem_without] at he
  obtain ⟨s, ⟨hs, hn⟩, rfl⟩ | ⟨s, ⟨hs, hn⟩, rfl⟩ := he
  · have hp : s.port = p := hp
    subst hp
    rw [hs]
    rfl
  · have hp : s.port = p := hp
    subst hp
    rw [AList.lookup_eq_none.mpr hn]
    rfl

/-- A port comes out of a poll as the table has it, unless it was there before and stays. -/
theorem replay_poll (view : Port → Option RankView) :
    Replay.replay (·.port) view_of_event view (poll found now t).2 p =
      if p ∈ t.slots ↔ p ∈ (Table.of found).slots then view p else reported (slots (Table.of found)) p := by
  by_cases h : p ∈ t.slots ↔ p ∈ (Table.of found).slots
  · rw [if_pos h, Replay.replay_untouched]
    rw [touches_poll, not_not]
    exact h
  · rw [if_neg h]
    exact Replay.replay_const (touches_poll.mpr h) view_of_poll

theorem poll_step_iff {view : Port → Option RankView} (hview : ∀ p, view p = reported (slots t) p) :
    (∀ p, Replay.replay (·.port) view_of_event view (poll found now t).2 p = reported (slots (poll found now t).1) p) ↔
      ∀ p s s', t.slots.lookup p = some s → claimed found p = some s' → rank_view s' = rank_view s := by
  have htable : (poll found now t).1 = Table.of found := rfl
  refine forall_congr' fun p => ?_
  have ht : p ∈ t.slots ↔ (t.slots.lookup p).isSome = true := AList.lookup_isSome.symm
  have hf : p ∈ (Table.of found).slots ↔ (claimed found p).isSome = true := by rw [← lookup_of, AList.lookup_isSome]
  rw [htable, replay_poll, hview, reported_slots, reported_slots, lookup_of]
  cases hl : t.slots.lookup p with
  | none => cases hc : claimed found p <;> simp [ht, hf, hl, hc]
  | some s =>
    cases hc : claimed found p with
    | none => simp [ht, hf, hl, hc]
    | some s' => simp [ht, hf, hl, hc, eq_comm]

theorem poll_silent (h : ∀ s, s ∈ found' ↔ s ∈ found) : (poll found' now (Table.of found)).2 = [] := by
  have hports : ∀ p, p ∈ (Table.of found').slots ↔ p ∈ (Table.of found).slots := by
    intro p
    simp only [mem_of, h]
  unfold poll Table.without
  rw [List.append_eq_nil_iff, List.map_eq_nil_iff, List.map_eq_nil_iff, List.filter_eq_nil_iff, List.filter_eq_nil_iff]
  refine ⟨fun s hs => ?_, fun s hs => ?_⟩
  · have : s.port ∈ (Table.of found').slots := mem_iff_lookup.mpr ⟨s, mem_slots.mp hs⟩
    simpa [← hports] using this
  · have : s.port ∈ (Table.of found).slots := mem_iff_lookup.mpr ⟨s, mem_slots.mp hs⟩
    simpa [hports] using this

/-! ## All polls -/

theorem polls_snoc (ds : List Discovery) (d : Discovery) : polls (ds ++ [d]) = poll_next (polls ds) d := by
  simp [polls]

theorem lookup_polls_snoc (ds : List Discovery) (d : Discovery) : (polls (ds ++ [d])).1.slots.lookup p = claimed d.1 p := by
  rw [polls_snoc]
  exact lookup_of

theorem agrees_snoc_iff (h : ∀ p, replayed (polls ds).2 p = reported (slots (polls ds).1) p) :
    (∀ p, replayed (polls (ds ++ [d])).2 p = reported (slots (polls (ds ++ [d])).1) p) ↔
      ∀ found ∈ (ds.map Prod.fst).getLast?, Keeps found d.1 := by
  rw [polls_snoc, poll_next]
  simp only [replayed, Replay.replay_append]
  rw [poll_step_iff (by exact h)]
  induction ds using List.reverseRecOn with
  | nil => simp [polls, Table.empty]
  | append_singleton ds d' =>
    simp only [lookup_polls_snoc, List.map_append, List.map_singleton, List.getLast?_concat, Option.mem_some_iff, forall_eq']
    rfl

theorem agrees_iff (ds : List Discovery) :
    (∀ past, past <+: ds → ∀ p, replayed (polls past).2 p = reported (slots (polls past).1) p) ↔
      (ds.map Prod.fst).IsChain Keeps := by
  induction ds using List.reverseRecOn with
  | nil =>
    simp only [List.prefix_nil, forall_eq, List.map_nil, List.isChain_nil, iff_true]
    intro p
    rfl
  | append_singleton ds d ih =>
    rw [List.map_append, List.isChain_append, ← ih]
    simp only [List.prefix_concat_iff, forall_eq_or_imp, List.map_singleton, List.isChain_singleton, List.head?_cons,
      Option.mem_some_iff, forall_eq', true_and]
    rw [and_comm]
    exact and_congr_right fun h => agrees_snoc_iff (h ds (List.prefix_refl ds))

/-- **The events of peer ranks.** Replaying them gives the table after every poll if and only if no poll finds another
rank on a port than the one before did. -/
theorem replay_gives_table_iff (ds : List Discovery) : Replays ds ↔ (ds.map Prod.fst).IsChain Keeps := by
  refine ⟨fun h => (agrees_iff ds).mp h.agrees, fun h => ⟨(agrees_iff ds).mpr h, fun past d d' _ hsame => ?_⟩⟩
  rw [polls_snoc]
  exact poll_silent hsame

def peer_rank (cluster_id : String) : SlotInfo where
  port := 8081
  base_url := "http://127.0.0.1:8081/v1"
  status := .up
  resident_model := some "m"
  cluster_id := some cluster_id
  tp_rank := some 1
  tp_size := some 2

/-- Two cluster loads, one after the other on the same port between two polls. -/
def replaced : List Discovery := [([peer_rank "a"], 0), ([peer_rank "b"], 1)]

/-- Airo is told nothing of the second load. -/
theorem replaced_not_told : replayed (polls replaced).2 8081 = some (rank_view (peer_rank "a")) ∧
    slots (polls replaced).1 = [peer_rank "b"] ∧ ¬ Replays replaced := by
  have hview : replayed (polls replaced).2 8081 = some (rank_view (peer_rank "a")) := by decide
  have hslots : slots (polls replaced).1 = [peer_rank "b"] := rfl
  refine ⟨hview, hslots, fun h => ?_⟩
  have hagrees := h.agrees replaced (List.prefix_refl _) 8081
  rw [hview, hslots] at hagrees
  revert hagrees
  decide

end AiroAgent.PeerRanks
