import AiroAgent.PeerRanks
import Mathlib.Data.List.AList

/-!
# The table of peer ranks

The state of `PeerRanks` between polls, and what one poll does: the table is
rebuilt from what is discovered, and a rank that comes or goes is published.
`discover/0` gives an empty list for any call of the runtime that does not
succeed, as it does for a listing without a rank.
-/

namespace AiroAgent.PeerRanks

variable {host : Host} {t : Table} {found : List SlotInfo} {s : SlotInfo} {p : Port} {now : Time}

/-- The discovered slots by port. The order in which a map lists its keys is left to `AList`. -/
structure Table where
  slots : AList fun _ : Port => SlotInfo
  keyed : ∀ p s, slots.lookup p = some s → s.port = p

namespace Table

def empty : Table := ⟨∅, fun p s h => by rw [AList.lookup_empty] at h; cases h⟩

def put (s : SlotInfo) (t : Table) : Table where
  slots := t.slots.insert s.port s
  keyed p s' h := by
    by_cases hp : p = s.port
    · subst hp
      rw [AList.lookup_insert] at h
      cases h
      rfl
    · rw [AList.lookup_insert_ne hp] at h
      exact t.keyed p s' h

/-- `Map.new/2`: of two slots with one port the later one stays. -/
def of (found : List SlotInfo) : Table := found.foldl (fun t s => t.put s) empty

end Table

def slots (t : Table) : List SlotInfo := t.slots.entries.map (·.2)

def held (port : Port) (t : Table) : Bool := (slots t).any (·.port == port)

/-! ## A poll -/

/-- How a call of the runtime ends. -/
inductive Probe where
  | exited (code : Nat) (out : String)
  | raised

def Probe.listing (host : Host) : Probe → Option (List SlotInfo)
  | .exited 0 out => some (discover host out)
  | .exited (_ + 1) _ => none
  | .raised => none

def discovered (host : Host) (probe : Probe) : List SlotInfo := (probe.listing host).getD []

def event_of (slot : SlotInfo) (type : EventType) (now : Time) : Event where
  type := type
  port := slot.port
  resident_model := slot.resident_model
  revision := none
  ctx := .nil
  parallel := .nil
  ctx_total := .nil
  engine_build := .nil
  cluster_id := slot.cluster_id
  tp_rank := slot.tp_rank
  tp_size := slot.tp_size
  reason := if type = .down then some (.other "peer_rank_gone") else none
  time := now

/-- The slots of `a` on ports that `b` has none on. -/
def Table.without (a b : Table) : List SlotInfo :=
  (PeerRanks.slots a).filter fun s => decide (s.port ∉ b.slots)

def poll (found : List SlotInfo) (now : Time) (t : Table) : Table × List Event :=
  let discovered := Table.of found
  (discovered, ((discovered.without t).map fun s => event_of s .up now) ++
    ((t.without discovered).map fun s => event_of s .down now))

/-! ## What the table holds -/

theorem mem_slots : s ∈ slots t ↔ t.slots.lookup s.port = some s := by
  unfold slots
  rw [List.mem_map]
  constructor
  · intro h
    obtain ⟨e, he, rfl⟩ := h
    have hl : t.slots.lookup e.1 = some e.2 := AList.mem_lookup_iff.mpr he
    rw [t.keyed e.1 e.2 hl]
    exact hl
  · intro h
    exact ⟨⟨s.port, s⟩, AList.mem_lookup_iff.mp h, rfl⟩

theorem ports_slots (t : Table) : (slots t).map (·.port) = t.slots.keys := by
  unfold slots AList.keys List.keys
  rw [List.map_map]
  apply List.map_congr_left
  intro e he
  exact t.keyed e.1 e.2 (AList.mem_lookup_iff.mpr he)

theorem held_iff : held p t = true ↔ p ∈ t.slots := by
  unfold held
  rw [AList.mem_keys, ← ports_slots]
  simp [List.any_eq_true]

theorem foldl_put (found : List SlotInfo) (t : Table) :
    p ∈ (found.foldl (fun t s => t.put s) t).slots ↔ p ∈ t.slots ∨ ∃ s ∈ found, s.port = p := by
  induction found generalizing t with
  | nil => simp
  | cons s found ih =>
    rw [List.foldl_cons, ih]
    simp only [Table.put, AList.mem_insert, List.mem_cons, exists_eq_or_imp, or_assoc]
    rw [or_left_comm, eq_comm]

theorem mem_of : p ∈ (Table.of found).slots ↔ ∃ s ∈ found, s.port = p := by
  simp [Table.of, foldl_put, Table.empty]

/-! ## What a poll publishes -/

theorem mem_without {a b : Table} : s ∈ a.without b ↔ a.slots.lookup s.port = some s ∧ s.port ∉ b.slots := by
  simp [Table.without, mem_slots]

theorem down_mem_poll {e : Event} : e ∈ (poll found now t).2 ∧ e.type = .down ↔
    ∃ s ∈ slots t, (∀ s' ∈ found, s'.port ≠ s.port) ∧ e = event_of s .down now := by
  unfold poll
  simp only [List.mem_append, List.mem_map, mem_without, mem_slots, mem_of]
  constructor
  · intro h
    obtain ⟨h | h, ht⟩ := h
    · obtain ⟨s, -, rfl⟩ := h
      cases ht
    · obtain ⟨s, ⟨hs, hn⟩, rfl⟩ := h
      exact ⟨s, hs, fun s' hs' he => hn ⟨s', hs', he⟩, rfl⟩
  · intro h
    obtain ⟨s, hs, hn, rfl⟩ := h
    refine ⟨.inr ⟨s, ⟨hs, ?_⟩, rfl⟩, rfl⟩
    intro hx
    obtain ⟨s', hs', he⟩ := hx
    exact hn s' hs' he

end AiroAgent.PeerRanks
