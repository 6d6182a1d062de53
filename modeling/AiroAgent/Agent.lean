import AiroAgent.FleetInv
import AiroAgent.PeerTable

/-!
# Fleet and the peer ranks of a host

Fleet asks `PeerRanks` inside its handlers, whether a port is held and which
slots to list, and `PeerRanks` polls the runtime on its own. A run interleaves
the messages of Fleet with polls; every answer to Fleet is that of the table at
that moment. Two results are about all such runs: which ports `slots/0` lists
twice, and what a failed poll does to the table Fleet is guarded by.
-/

namespace AiroAgent

structure Agent where
  fleet : Fleet.Sys
  peers : PeerRanks.Table

namespace Agent

open PeerRanks (Probe Table discovered held poll)

inductive Input where
  | fleet (i : Fleet.Input)
  | poll (probe : Probe) (now : Time)

/-- What Fleet was told of the port it asked for is what the table says. -/
def answered (t : Table) : Fleet.Input → Bool
  | .load c => c.held == held c.port t
  | .unload port h => h == held port t
  | .mark_up _ _ _ | .down _ _ | .exit _ _ | .bind _ | .release _ => true

def init (host : Host) : Agent := ⟨Fleet.init host, Table.empty⟩

def step (host : Host) (a : Agent) : Input → Option Agent
  | .fleet i => if answered a.peers i then (Fleet.step host a.fleet i).map fun s => { a with fleet := s } else none
  | .poll probe now => some { a with peers := (poll (discovered host probe) now a.peers).1 }

/-- `Fleet.slots/0`. -/
def slots (host : Host) (a : Agent) : List SlotInfo := Fleet.handle_call_slots host (PeerRanks.slots a.peers) a.fleet

abbrev History := List (Agent × Input)

abbrev Run (host : Host) : History → Agent → Prop := Machine.Run (step host) (init host)

/-! ## What the polls found -/

def probes (h : History) : List Probe :=
  h.filterMap fun x => match x.2 with
    | .poll probe _ => some probe
    | .fleet _ => none

/-- What the last poll found, and nothing before the first one. -/
def last_found (host : Host) (ps : List Probe) : List SlotInfo := (ps.map (discovered host)).getLast?.getD []

/-- The last listing a call of the runtime succeeded with, and nothing before the first one. -/
def last_listing (host : Host) (ps : List Probe) : List SlotInfo := (ps.filterMap (·.listing host)).getLast?.getD []

section
variable {host : Host} {h : History} {a : Agent} {ps qs : List Probe} {probe : Probe}

theorem probes_poll {now : Time} : probes (h ++ [(a, .poll probe now)]) = probes h ++ [probe] := List.filterMap_append

theorem probes_fleet {i : Fleet.Input} : probes (h ++ [(a, .fleet i)]) = probes h := by
  simp [probes]

theorem last_found_snoc : last_found host (ps ++ [probe]) = discovered host probe := by
  simp [last_found]

theorem last_listing_snoc :
    last_listing host (ps ++ [probe]) = (probe.listing host).getD (last_listing host ps) := by
  unfold last_listing
  rw [List.filterMap_append]
  cases hp : probe.listing host with
  | none => simp [hp]
  | some found => simp [hp]

theorem run_peers (hr : Run host h a) : a.peers = Table.of (last_found host (probes h)) := by
  induction hr with
  | nil => rfl
  | @snoc h a i a' hr hst ih =>
    cases i with
    | fleet i =>
      simp only [step, Option.ite_none_right_eq_some, Option.map_eq_some_iff] at hst
      obtain ⟨-, s, -, rfl⟩ := hst
      rw [probes_fleet]
      exact ih
    | poll probe now =>
      cases hst
      rw [probes_poll, last_found_snoc]
      rfl

theorem run_fleet (hr : Run host h a) : ∃ h', Fleet.Run host h' a.fleet := by
  induction hr with
  | nil => exact ⟨[], .nil⟩
  | @snoc h a i a' hr hst ih =>
    obtain ⟨h', hr'⟩ := ih
    cases i with
    | fleet i =>
      simp only [step, Option.ite_none_right_eq_some, Option.map_eq_some_iff] at hst
      obtain ⟨-, s, hs, rfl⟩ := hst
      exact ⟨_, hr'.snoc hs⟩
    | poll probe now =>
      cases hst
      exact ⟨h', hr'⟩

theorem mem_peers (hr : Run host h a) {p : Port} :
    p ∈ a.peers.slots ↔ ∃ s ∈ last_found host (probes h), s.port = p := by
  rw [run_peers hr, PeerRanks.mem_of]

/-! ## One port, one slot -/

theorem ports_own (hr : Run host h a) : (Fleet.own_slots host a.fleet).map (·.port) = a.fleet.slots.keys := by
  obtain ⟨h', hr'⟩ := run_fleet hr
  have hi := Fleet.run_inv hr'
  unfold Fleet.own_slots AList.keys List.keys
  rw [List.map_map]
  apply List.map_congr_left
  intro e he
  exact (hi.slot e.1 e.2 (Fleet.mem_entries_iff.mp he)).port_eq

/-- **A port is reported once.** The ports `slots/0` lists are distinct if and only if
the last poll found no rank on a port this host has configured. -/
theorem slots_distinct_iff (hr : Run host h a) :
    ((slots host a).map (·.port)).Nodup ↔ ∀ s ∈ last_found host (probes h), s.port ∉ host.slots := by
  obtain ⟨h', hr'⟩ := run_fleet hr
  have hkeys := (Fleet.run_inv hr').keys
  have hown : a.fleet.slots.keys.Nodup := a.fleet.slots.keys_nodup
  have hpeers : a.peers.slots.keys.Nodup := a.peers.slots.keys_nodup
  unfold slots Fleet.handle_call_slots
  rw [List.map_append, ports_own hr, PeerRanks.ports_slots, List.nodup_append']
  constructor
  · intro hx s hs hp
    obtain ⟨-, -, hd⟩ := hx
    exact hd (AList.mem_keys.mp ((hkeys s.port).mpr hp)) (AList.mem_keys.mp ((mem_peers hr).mpr ⟨s, hs, rfl⟩))
  · intro hx
    refine ⟨hown, hpeers, ?_⟩
    intro p hp hp'
    obtain ⟨s, hs, rfl⟩ := (mem_peers hr).mp (AList.mem_keys.mpr hp')
    exact hx s hs ((hkeys s.port).mp (AList.mem_keys.mpr hp))

/-! A listing with one rank of another host's load, on a port. -/

def rank_line (port : Port) : Probe := .exited 0 ("dep-7f3a\t1\t2\torg/big:fp8\t" ++ toString port ++ "\n")

theorem slots_distinct_iff_elsewhere : ∃ h a, Run Fleet.one_slot h a ∧
    h.map Prod.snd = [.fleet (Fleet.load_ok Fleet.model_a 0), .poll (rank_line 8082) 0] ∧
    (((slots Fleet.one_slot a).map (·.port)).Nodup ↔
      ∀ s ∈ last_found Fleet.one_slot (probes h), s.port ∉ Fleet.one_slot.slots) := by
  have he : ∃ a, Machine.exec (step Fleet.one_slot) (init Fleet.one_slot)
      [.fleet (Fleet.load_ok Fleet.model_a 0), .poll (rank_line 8082) 0] = some a := ⟨_, rfl⟩
  obtain ⟨a, he⟩ := he
  exact ⟨_, a, .of_exec he, rfl, slots_distinct_iff (.of_exec he)⟩

/-- The worker of a two-host load has the slot its head uses configured as well: port 8081 is listed twice. -/
theorem rank_on_own_slot_listed_twice : ∃ h a, Run Fleet.one_slot h a ∧
    h.map Prod.snd = [.poll (rank_line 8081) 0] ∧ (slots Fleet.one_slot a).map (·.port) = [8081, 8081] := by
  have he : ∃ a, Machine.exec (step Fleet.one_slot) (init Fleet.one_slot) [.poll (rank_line 8081) 0] = some a ∧
      (slots Fleet.one_slot a).map (·.port) = [8081, 8081] := ⟨_, rfl, by decide⟩
  obtain ⟨a, he, hp⟩ := he
  exact ⟨_, a, .of_exec he, rfl, hp⟩

/-! ## A failed poll -/

/-- Fleet turns a load and an unload of the port away, and stays as it is. -/
structure Refused (host : Host) (a : Agent) (p : Port) : Prop where
  load : ∀ c : Fleet.LoadCall, c.port = p → answered a.peers (.load c) = true →
    Fleet.handle_call_load host c a.fleet = (.error .peer_rank_resident, a.fleet)
  unload : ∀ answer, answered a.peers (.unload p answer) = true →
    Fleet.handle_call_unload p answer a.fleet = (.error .peer_rank_resident, a.fleet)

theorem refused_of_held {p : Port} (hp : held p a.peers = true) : Refused host a p where
  load c hc ha := by
    subst hc
    simp only [answered, hp, beq_iff_eq] at ha
    simp [Fleet.handle_call_load, ha]
  unload answer ha := by
    simp only [answered, hp, beq_iff_eq] at ha
    simp [Fleet.handle_call_unload, ha]

/-- The ranks of the last listing are held, and Fleet refuses their ports. -/
def StaysHeld (host : Host) (h : History) (a : Agent) : Prop :=
  ∀ s ∈ last_listing host (probes h), held s.port a.peers = true ∧ Refused host a s.port

/-- A `:down` of a peer rank is published by a poll that succeeded, with a listing without its port. -/
def GoneWhenUnlisted (host : Host) (h : History) : Prop :=
  ∀ h₁ a probe now h₂, h = h₁ ++ (a, .poll probe now) :: h₂ → ∀ e ∈ (poll (discovered host probe) now a.peers).2,
    e.type = .down → ∃ found, probe.listing host = some found ∧ ∀ s ∈ found, s.port ≠ e.port

structure RanksTrue (host : Host) (h : History) (a : Agent) : Prop where
  gone : GoneWhenUnlisted host h
  held : StaysHeld host h a
  held_before : ∀ h₁ a₁ i h₂, h = h₁ ++ (a₁, i) :: h₂ → StaysHeld host h₁ a₁

/-- No call fails while the last listing there was has a rank in it. -/
def FailsWithoutRanks (host : Host) (ps : List Probe) : Prop :=
  ∀ ps₁ probe ps₂, ps = ps₁ ++ probe :: ps₂ → probe.listing host = none → last_listing host ps₁ = []

theorem FailsWithoutRanks.of_append (hf : FailsWithoutRanks host (ps ++ qs)) : FailsWithoutRanks host ps := by
  intro ps₁ probe ps₂ he
  exact hf ps₁ probe (ps₂ ++ qs) (by rw [he, List.append_assoc, List.cons_append])

theorem FailsWithoutRanks.last_found (hf : FailsWithoutRanks host ps) : last_found host ps = last_listing host ps := by
  rcases List.eq_nil_or_concat ps with rfl | ⟨ps, probe, rfl⟩
  · rfl
  · rw [List.concat_eq_append] at hf ⊢
    rw [last_found_snoc, last_listing_snoc]
    unfold discovered
    cases hp : probe.listing host with
    | some found => rfl
    | none => exact (hf ps probe [] rfl hp).symm

theorem stays_held (hr : Run host h a) (hf : FailsWithoutRanks host (probes h)) : StaysHeld host h a := by
  intro s hs
  have hp : held s.port a.peers = true := by
    rw [PeerRanks.held_iff, mem_peers hr, hf.last_found]
    exact ⟨s, hs, rfl⟩
  exact ⟨hp, refused_of_held hp⟩

theorem probes_append (h₁ h₂ : History) : probes (h₁ ++ h₂) = probes h₁ ++ probes h₂ := List.filterMap_append

theorem probes_split {h₁ h₂ : History} {now : Time} :
    probes (h₁ ++ (a, .poll probe now) :: h₂) = probes h₁ ++ probe :: probes h₂ :=
  probes_append h₁ _

theorem exists_poll {ps₁ ps₂ : List Probe} (he : probes h = ps₁ ++ probe :: ps₂) :
    ∃ h₁ a₁ now h₂, h = h₁ ++ (a₁, .poll probe now) :: h₂ ∧ probes h₁ = ps₁ := by
  obtain ⟨l₁, l₂, rfl, rfl, hc⟩ := List.filterMap_eq_append_iff.mp he
  obtain ⟨m₁, x, m₂, rfl, hm, hx, -⟩ := List.filterMap_eq_cons_iff.mp hc
  obtain ⟨a₁, i⟩ := x
  cases i with
  | fleet i => cases hx
  | poll probe' now =>
    cases hx
    refine ⟨l₁ ++ m₁, a₁, now, m₂, by rw [List.append_assoc], ?_⟩
    rw [probes_append, show probes m₁ = [] from List.filterMap_eq_nil_iff.mpr hm, List.append_nil]
    rfl

theorem not_failed_of_gone {h₁ h₂ : History} {a₁ : Agent} {now : Time} (hg : GoneWhenUnlisted host h)
    (he : h = h₁ ++ (a₁, .poll probe now) :: h₂) (hp : probe.listing host = none) (p : Port) :
    held p a₁.peers = false := by
  cases hh : held p a₁.peers with
  | false => rfl
  | true =>
    obtain ⟨s, hs⟩ := Option.isSome_iff_exists.mp (AList.lookup_isSome.mpr (PeerRanks.held_iff.mp hh))
    have hk : s.port = p := a₁.peers.keyed p s hs
    subst hk
    have hd : discovered host probe = [] := by simp [discovered, hp]
    have hdown : PeerRanks.event_of s .down now ∈ (poll (discovered host probe) now a₁.peers).2 := by
      apply And.left
      apply PeerRanks.down_mem_poll.mpr
      exact ⟨s, PeerRanks.mem_slots.mpr hs, by simp [hd], rfl⟩
    obtain ⟨found, hfound, -⟩ := hg h₁ a₁ probe now h₂ he _ hdown rfl
    rw [hp] at hfound
    cases hfound

/-- **A failed probe.** In a run, a rank is published as gone only when a listing shows
it, and a listed rank stays held, if and only if no call fails while a rank is listed. -/
theorem ranks_true_iff (hr : Run host h a) : RanksTrue host h a ↔ FailsWithoutRanks host (probes h) := by
  constructor
  · intro hx ps₁ probe ps₂ he hp
    obtain ⟨h₁, a₁, now, h₂, rfl, rfl⟩ := exists_poll he
    apply List.eq_nil_iff_forall_not_mem.mpr
    intro s hs
    have hheld := (hx.held_before h₁ a₁ _ h₂ rfl s hs).1
    rw [not_failed_of_gone hx.gone rfl hp] at hheld
    cases hheld
  · intro hf
    refine ⟨?_, stays_held hr hf, ?_⟩
    · intro h₁ a₁ probe now h₂ he e hemem ht
      obtain ⟨hr₁, -⟩ := hr.split he
      rw [he, probes_split] at hf
      obtain ⟨s, hs, hn, rfl⟩ := PeerRanks.down_mem_poll.mp ⟨hemem, ht⟩
      cases hp : probe.listing host with
      | some found =>
        refine ⟨found, rfl, fun s' hs' => hn s' ?_⟩
        simpa [discovered, hp] using hs'
      | none =>
        -- the table is that of the last listing, which had no rank
        have hin := (mem_peers hr₁).mp (AList.lookup_isSome.mp (by rw [PeerRanks.mem_slots.mp hs]; rfl))
        rw [hf.of_append.last_found, hf _ _ _ rfl hp] at hin
        obtain ⟨s', hs', -⟩ := hin
        cases hs'
    · intro h₁ a₁ i h₂ he
      obtain ⟨hr₁, -⟩ := hr.split he
      rw [he, probes_append] at hf
      exact stays_held hr₁ hf.of_append

theorem ranks_true_iff_unlisted : ∃ h a, Run Fleet.one_slot h a ∧
    h.map Prod.snd = [.poll (rank_line 8082) 0, .poll (.exited 0 "") 1, .poll .raised 2] ∧
    (RanksTrue Fleet.one_slot h a ↔ FailsWithoutRanks Fleet.one_slot (probes h)) := by
  have he : ∃ a, Machine.exec (step Fleet.one_slot) (init Fleet.one_slot)
      [.poll (rank_line 8082) 0, .poll (.exited 0 "") 1, .poll .raised 2] = some a := ⟨_, rfl⟩
  obtain ⟨a, he⟩ := he
  exact ⟨_, a, .of_exec he, rfl, ranks_true_iff (.of_exec he)⟩

/-- The second call of the runtime fails: the rank on 8082 is published as gone, and the port is held no more. -/
theorem failed_probe_drops_rank : ∃ h a, Run Fleet.one_slot h a ∧
    h.map Prod.snd = [.poll (rank_line 8082) 0, .poll (.exited 125 "") 1] ∧
    held 8082 a.peers = false ∧ ¬ RanksTrue Fleet.one_slot h a := by
  have he : ∃ a, Machine.exec (step Fleet.one_slot) (init Fleet.one_slot) [.poll (rank_line 8082) 0] = some a ∧
      held 8082 a.peers = true := ⟨_, rfl, by decide⟩
  obtain ⟨a, he, hh⟩ := he
  have hr := (Machine.Run.of_exec he).snoc (i := .poll (.exited 125 "") 1) rfl
  refine ⟨_, _, hr, rfl, rfl, ?_⟩
  intro hx
  rw [not_failed_of_gone hx.gone rfl rfl 8082] at hh
  cases hh

end

end Agent

end AiroAgent
