import AiroAgent.Api
import AiroAgent.FleetReject

/-!
# Loads over the API

Where every engine of the host comes from, and what the answer to `POST /load`
says about the slots that `GET /slots` lists after it.
-/

namespace AiroAgent

namespace Fleet

section
variable {host : Host} {s s' : Sys} {i : Input} {c : LoadCall} {p : Port} {slot : Slot} {pid : Pid}

/-- An engine in a slot was there with the same model and profile, or the step is the load that started it. -/
theorem step_engine (hst : step host s i = some s') (hl : s'.slots.lookup p = some slot) (hp : slot.pid = some pid) :
    (∃ old, s.slots.lookup p = some old ∧ old.pid = some pid ∧ old.model = slot.model ∧ old.profile = slot.profile) ∨
      ∃ c ref early, i = .load c ∧ c.port = p ∧ c.start = .ok pid ref early ∧ slot.model = some c.model ∧
        slot.profile = c.profile := by
  cases step_trans hst with
  | @load_start c _ pid' ref early l hL hs hf =>
    obtain ⟨rfl, rfl⟩ | ⟨-, hl⟩ := lookup_insert_cases hl
    · cases hp
      exact .inr ⟨c, ref, early, rfl, rfl, hs, rfl, rfl⟩
    · exact .inl ⟨slot, hl, hp, rfl, rfl⟩
  | load_fail | down =>
    obtain ⟨-, rfl⟩ | ⟨-, hl⟩ := lookup_insert_cases hl
    · cases hp
    · exact .inl ⟨slot, hl, hp, rfl, rfl⟩
  | @mark_up _ _ _ q old hk hf hs =>
    obtain ⟨rfl, rfl⟩ | ⟨-, hl⟩ := lookup_insert_cases hl
    · have hold := (find_by_pid_some hf).1
      exact .inl ⟨old, hold, hp, rfl, rfl⟩
    · exact .inl ⟨slot, hl, hp, rfl, rfl⟩
  | _ => exact .inl ⟨slot, hl, hp, rfl, rfl⟩

theorem step_launches (hst : step host s i = some s') :
    s'.launched = s.launched ∨
      ∃ c pid ref early, i = .load c ∧ c.start = .ok pid ref early ∧ s'.launched = s.launched ++ [⟨c.port, pid, ref⟩] := by
  cases step_trans hst with
  | @load_start c _ pid ref early l hL hs hf => exact .inr ⟨c, pid, ref, early, rfl, hs, rfl⟩
  | _ => exact .inl rfl

/-- What a load answers is what it left in the slot. -/
theorem load_ok_slot {info : SlotInfo} (h : (handle_call_load host c s).1 = .ok info) :
    ∃ slot, (handle_call_load host c s).2.slots.lookup c.port = some slot ∧ info = slot_info host slot ∧
      slot.model.map (·.id) = some c.model.id ∧ (slot.status = .up ∨ slot.status = .loading) := by
  obtain ⟨slot, hh, hl, ha, hs⟩ | ⟨slot, pid, ref, early, hL, hs⟩ := handle_call_load_ok h
  · obtain ⟨resident, hup, hm, hid⟩ : ∃ m, slot.status = .up ∧ slot.model = some m ∧ m.id = c.model.id := by
      unfold already_serving at ha
      split at ha
      · rename_i m hup hm
        simp only [Bool.and_eq_true, beq_iff_eq] at ha
        exact ⟨m, hup, hm, ha.1⟩
      · cases ha
    rw [handle_call_load_serving hh hl ha] at h ⊢
    cases h
    exact ⟨slot, hl, rfl, by rw [hm, Option.map_some, hid], .inl hup⟩
  · refine ⟨started c pid ref, ?_, ?_, rfl, .inr rfl⟩
    · rw [load_started hL hs]
      exact AList.lookup_insert s.slots
    · rw [do_load_launches hL, start_engine_ok hs] at h
      cases h
      rfl

theorem load_ok_iff : (∃ info, (handle_call_load host c s).1 = .ok info) ↔
    c.held = false ∧ ∃ slot, s.slots.lookup c.port = some slot ∧
      (already_serving slot c.model c.profile = true ∨ ∃ pid ref early, c.start = .ok pid ref early) := by
  constructor
  · rintro ⟨info, h⟩
    obtain ⟨slot, hh, hl, ha, -⟩ | ⟨slot, pid, ref, early, hL, hs⟩ := handle_call_load_ok h
    · exact ⟨hh, slot, hl, .inl ha⟩
    · exact ⟨hL.free, slot, hL.found, .inr ⟨pid, ref, early, hs⟩⟩
  · rintro ⟨hh, slot, hl, hx⟩
    by_cases ha : already_serving slot c.model c.profile = true
    · exact ⟨slot_info host slot, by rw [handle_call_load_serving hh hl ha]⟩
    · obtain ⟨pid, ref, early, hs⟩ := hx.resolve_left ha
      have hL : Launches s c slot := ⟨hh, hl, by simpa using ha⟩
      refine ⟨slot_info host (started c pid ref), ?_⟩
      rw [do_load_launches hL, start_engine_ok hs]

theorem load_others {q : Port} (hq : q ≠ c.port) : (handle_call_load host c s).2.slots.lookup q = s.slots.lookup q := by
  by_cases h : ∃ slot, Launches s c slot
  · obtain ⟨slot, hL⟩ := h
    cases hs : c.start with
    | ok pid ref early =>
      rw [load_started hL hs]
      exact AList.lookup_insert_ne hq
    | error reason =>
      rw [load_failed hL hs]
      exact AList.lookup_insert_ne hq
  · rw [handle_call_load_noop fun slot hL => h ⟨slot, hL⟩]

theorem load_held : (handle_call_load host c s).1 = .error .peer_rank_resident ↔ c.held = true := by
  constructor
  · intro he
    cases hh : c.held with
    | true => rfl
    | false =>
      rw [handle_call_load, hh, if_neg Bool.false_ne_true] at he
      unfold do_load at he
      split at he
      · cases he
      · split at he
        · cases he
        · split at he <;> cases he
  · intro hh
    rw [handle_call_load, if_pos hh]

end

end Fleet

namespace Api

/-- A load asked for with the token: the slot, and the engine that starting one came to. -/
def asked (token : Option String) : Input → Option (Port × Pid)
  | .request r o =>
    match r.parsed, o.start with
    | .params body, .ok pid _ _ =>
      match body.lookup "slot" with
      | some (.int slot) => if presents token r && route r == .load then some (slot, pid) else none
      | _ => none
    | _, _ => none
  | .agent _ | .gpu _ | .scan _ => none

def scanned (token : Option String) : Input → Option Host
  | .request r o => if effective token (.request r o) && route r == .refresh then some o.disk else none
  | .scan disk => some disk
  | .agent _ | .gpu _ => none

def last_scan (token : Option String) (h : History) : Option Host := (h.filterMap fun x => scanned token x.2).getLast?

/-- The request is the load of `m`, as the catalogue has it, that started the engine. -/
structure Asked (token : Option String) (a : Api) (r : Request) (o : Outcome) (p : Port) (m : ModelRef) (profile : Profile)
    (pid : Pid) : Prop where
  presents : presents token r = true
  route : route r = .load
  body : ∃ body, r.parsed = .params body ∧ body.lookup "model" = some (.str m.id) ∧ body.lookup "slot" = some (.int p) ∧
    profile = requested_profile body
  found : Inventory.get a.models m.id = some m
  started : ∃ ref early, o.start = .ok pid ref early

/-- `GET /slots` lists the payload, and nothing else for its port. -/
def ListedAlone (host : Host) (token : Option String) (a : Api) (payload : Channel.SlotPayload) : Prop :=
  ∀ r o body, r.parsed = .params body → presents token r = true → route r = .slots → o.late = none →
    ∃ payloads, call host token a r o = some (⟨200, .slots payloads⟩, a) ∧
      payloads.filter (·.port == payload.port) = [payload]

/-- The answer to a load of a model in a slot, and the state after it. -/
structure LoadAnswered (host : Host) (token : Option String) (a : Api) (id : Val) (p : Port) (profile : Profile) (o : Outcome)
    (resp : Response) (a' : Api) : Prop where
  status : resp.status = 200 ∨ resp.status = 404 ∨ resp.status = 409 ∨ resp.status = 422
  unknown : resp.status = 404 ↔ Inventory.find a.models id = none
  conflict : resp.status = 409 ↔ Inventory.find a.models id ≠ none ∧ PeerRanks.held p a.agent.peers = true
  loaded : resp.status = 200 ↔ PeerRanks.held p a.agent.peers = false ∧ ∃ model slot,
    Inventory.find a.models id = some model ∧ a.agent.fleet.slots.lookup p = some slot ∧
      (Fleet.already_serving slot model profile = true ∨ ∃ pid ref early, o.start = .ok pid ref early)
  listed : resp.status = 200 → ∃ payload, resp.body = .slot payload ∧ payload.port = p ∧
    payload.resident_model.map Val.str = some id ∧ (payload.status = .up ∨ payload.status = .loading) ∧
    ListedAlone host token a' payload
  turned_away : resp.status = 404 ∨ resp.status = 409 → a' = a
  failed : resp.status = 422 → a' = a ∨ a'.agent.fleet.slots.lookup p = some (Fleet.empty_slot p)
  others : ∀ q, q ≠ p → a'.agent.fleet.slots.lookup q = a.agent.fleet.slots.lookup q

section
variable {host : Host} {token : Option String} {a a' : Api} {i : Input} {h : History} {r : Request} {o : Outcome}
  {body : List (String × Val)} {id : Val} {model : ModelRef} {p : Port} {slot : Fleet.Slot} {pid : Pid}

theorem find_eq_some (hm : Inventory.find a.models id = some model) :
    id = .str model.id ∧ Inventory.get a.models model.id = some model := by
  unfold Inventory.find at hm
  split at hm
  · rename_i s
    have hs : model.id = s := by
      have := List.find?_some hm
      simpa using this
    subst hs
    exact ⟨rfl, hm⟩
  · cases hm

theorem effective_presents (he : effective token (.request r o) = true) : presents token r = true := by
  cases hparsed : r.parsed with
  | refused status => simp [effective, hparsed] at he
  | params body =>
    simp only [effective, hparsed, Bool.and_eq_true] at he
    exact he.1

/-- An input of Fleet's that no request sends starts nothing. -/
theorem agent_unasked {b b' : Agent} {j : Agent.Input} (hu : unasked j = true) (hst : Agent.step host b j = some b') :
    b'.fleet = b.fleet ∨ ∃ i, (∀ c, i ≠ .load c) ∧ Fleet.step host b.fleet i = some b'.fleet := by
  cases j with
  | fleet i =>
    simp only [Agent.step, Option.ite_none_right_eq_some, Option.map_eq_some_iff] at hst
    obtain ⟨-, s, hs, rfl⟩ := hst
    refine .inr ⟨i, ?_, hs⟩
    rintro c rfl
    cases hu
  | poll probe now =>
    cases hst
    exact .inl rfl

theorem agent_fleet {b b' : Agent} {i : Fleet.Input} (hst : Agent.step host b (.fleet i) = some b') :
    Fleet.step host b.fleet i = some b'.fleet := by
  simp only [Agent.step, Option.ite_none_right_eq_some, Option.map_eq_some_iff] at hst
  obtain ⟨-, s, hs, rfl⟩ := hst
  exact hs

/-! ## Where the engines come from -/

/-- What Fleet sees of a step: nothing, a message that is no load, or the load of the request. -/
theorem step_fleet (hst : step host token a i = some a') :
    a'.agent.fleet = a.agent.fleet ∨
      (∃ j, (∀ c, j ≠ .load c) ∧ Fleet.step host a.agent.fleet j = some a'.agent.fleet) ∨
      ∃ r o body id slot model, i = .request r o ∧ effective token (.request r o) = true ∧ route r = .load ∧
        r.parsed = .params body ∧ body.lookup "model" = some id ∧ body.lookup "slot" = some (.int slot) ∧
        Inventory.find a.models id = some model ∧
        Fleet.step host a.agent.fleet (.load (load_call a body model slot o)) = some a'.agent.fleet := by
  cases step_trans hst with
  | @load r o body id slot model agent he hroute hparsed hid hslot hm hs =>
    exact .inr (.inr ⟨r, o, body, id, slot, model, rfl, he, hroute, hparsed, hid, hslot, hm, agent_fleet hs⟩)
  | unload he hroute hs =>
    refine .inr (.inl ⟨_, ?_, agent_fleet hs⟩)
    intro c hc
    cases hc
  | agent hu hs =>
    obtain hsame | ⟨j, hj, hs⟩ := agent_unasked hu hs
    · exact .inl hsame
    · exact .inr (.inl ⟨j, hj, hs⟩)
  | still | refresh | gpu | scan => exact .inl rfl

theorem asked_of_load {ref : Ref} {early : Option Reason} (he : effective token (.request r o) = true)
    (hroute : route r = .load) (hparsed : r.parsed = .params body) (hslot : body.lookup "slot" = some (.int p))
    (hs : o.start = .ok pid ref early) : asked token (.request r o) = some (p, pid) := by
  simp [asked, hparsed, hs, hslot, effective_presents he, hroute]

/-- **Every engine was asked for.** The engines launched are, in their order, started by loads
with the token, each by a request of its own, and in the slot it names. -/
theorem launches_asked (hr : Run host token h a) :
    (a.agent.fleet.launched.map fun l => (l.port, l.pid)).Sublist (h.filterMap fun x => asked token x.2) := by
  induction hr with
  | nil => exact .slnil
  | @snoc h a i a' hr hst ih =>
    rw [List.filterMap_append]
    have hkeep : a'.agent.fleet.launched = a.agent.fleet.launched →
        (a'.agent.fleet.launched.map fun l => (l.port, l.pid)).Sublist
          ((h.filterMap fun x => asked token x.2) ++ [(a, i)].filterMap fun x => asked token x.2) := by
      intro he
      rw [he]
      exact ih.trans (List.sublist_append_left _ _)
    obtain he | ⟨j, hj, hs⟩ | ⟨r, o, body, id, slot, model, rfl, he, hroute, hparsed, -, hslot, -, hs⟩ := step_fleet hst
    · exact hkeep (by rw [he])
    · obtain he | ⟨c, pid, ref, early, rfl, -⟩ := Fleet.step_launches hs
      · exact hkeep he
      · exact absurd rfl (hj c)
    · obtain he | ⟨c, pid, ref, early, hc, hstart, hlaunched⟩ := Fleet.step_launches hs
      · exact hkeep he
      · cases hc
        have hasked : asked token (.request r o) = some (slot, pid) := asked_of_load he hroute hparsed hslot hstart
        rw [hlaunched, List.map_append]
        apply ih.append
        simp [hasked, load_call]

/-! Of two loads the second has the token. -/

theorem scan_then_loads_run : ∃ a slot, Machine.exec (step shelf (some "s3cret")) (init shelf) scan_then_loads = some a ∧
    a.agent.fleet.slots.lookup 8081 = some slot ∧ slot.pid = some 1 := by
  have he : (Machine.exec (step shelf (some "s3cret")) (init shelf) scan_then_loads).any (fun a =>
      (a.agent.fleet.slots.lookup 8081).any fun slot => slot.pid == some 1) = true := by decide +kernel
  obtain ⟨a, he, hslot⟩ := (Option.any_eq_true _ _).mp he
  obtain ⟨slot, hl, hp⟩ := (Option.any_eq_true _ _).mp hslot
  exact ⟨a, slot, he, hl, by simpa using hp⟩

theorem launches_asked_once : ∃ h a, Run shelf (some "s3cret") h a ∧ h.map Prod.snd = scan_then_loads ∧
    (a.agent.fleet.launched.map fun l => (l.port, l.pid)).Sublist (h.filterMap fun x => asked (some "s3cret") x.2) := by
  obtain ⟨a, slot, he, -⟩ := scan_then_loads_run
  exact ⟨_, a, .of_exec he, Machine.visits_inputs he, launches_asked (.of_exec he)⟩

theorem run_models (hr : Run host token h a) : a.models = (last_scan token h).elim [] Inventory.scan := by
  induction hr with
  | nil => rfl
  | @snoc h a i a' hr hst ih =>
    have hlast : ∀ disk, scanned token i = some disk → last_scan token (h ++ [(a, i)]) = some disk := by
      intro disk hd
      simp [last_scan, hd]
    have hkeep : scanned token i = none → last_scan token (h ++ [(a, i)]) = last_scan token h := by
      intro hn
      simp [last_scan, hn]
    cases step_trans hst with
    | @still r o hn =>
      have hscan : scanned token (.request r o) = none := by
        rcases hn with he | hroute
        · simp [scanned, he]
        · simp [scanned, hroute]
      rw [hkeep hscan]
      exact ih
    | @refresh r o he hroute =>
      rw [hlast o.disk (by simp [scanned, he, hroute])]
      rfl
    | @load r o body id slot model agent he hroute =>
      rw [hkeep (by simp [scanned, hroute])]
      exact ih
    | @unload r o slot agent he hroute =>
      rw [hkeep (by simp [scanned, hroute])]
      exact ih
    | agent =>
      rw [hkeep rfl]
      exact ih
    | gpu =>
      rw [hkeep rfl]
      exact ih
    | scan =>
      rw [hlast _ rfl]
      rfl

/-- **The engine in a slot.** It runs the model and the profile of the very request that started
it, which had the token, and a model that the last scan before the request had found. -/
theorem resident_asked (hr : Run host token h a) (hl : a.agent.fleet.slots.lookup p = some slot)
    (hp : slot.pid = some pid) :
    ∃ m h₁ a₁ r o h₂ disk, slot.model = some m ∧ h = h₁ ++ (a₁, .request r o) :: h₂ ∧
      Asked token a₁ r o p m slot.profile pid ∧ last_scan token h₁ = some disk ∧ m ∈ Inventory.scan disk := by
  induction hr generalizing slot with
  | nil =>
    obtain rfl | ⟨pid', ref, hR⟩ := (Fleet.inv_init host).slot p slot hl
    · cases hp
    · cases hR.launched
  | @snoc h a i a' hr hst ih =>
    have hkeep : ∀ old, a.agent.fleet.slots.lookup p = some old → old.pid = some pid → old.model = slot.model →
        old.profile = slot.profile → ∃ m h₁ a₁ r o h₂ disk, slot.model = some m ∧
          h ++ [(a, i)] = h₁ ++ (a₁, .request r o) :: h₂ ∧ Asked token a₁ r o p m slot.profile pid ∧
          last_scan token h₁ = some disk ∧ m ∈ Inventory.scan disk := by
      intro old hold hpid hmodel hprofile
      obtain ⟨m, h₁, a₁, r, o, h₂, disk, hm, rfl, hasked, hrest⟩ := ih hold hpid
      refine ⟨m, h₁, a₁, r, o, h₂ ++ [(a, i)], disk, hmodel ▸ hm, ?_, hprofile ▸ hasked, hrest⟩
      rw [List.append_assoc, List.cons_append]
    obtain he | ⟨j, hj, hs⟩ | ⟨r, o, body, id, q, model, rfl, he, hroute, hparsed, hid, hslot, hm, hs⟩ := step_fleet hst
    · rw [he] at hl
      exact hkeep slot hl hp rfl rfl
    · obtain ⟨old, hold, hpid, hmodel, hprofile⟩ | ⟨c, ref, early, rfl, -⟩ := Fleet.step_engine hs hl hp
      · exact hkeep old hold hpid hmodel hprofile
      · exact absurd rfl (hj c)
    · obtain ⟨old, hold, hpid, hmodel, hprofile⟩ | ⟨c, ref, early, hc, rfl, hstart, hmodel, hprofile⟩ :=
        Fleet.step_engine hs hl hp
      · exact hkeep old hold hpid hmodel hprofile
      · cases hc
        obtain ⟨rfl, hget⟩ := find_eq_some hm
        have hmem : model ∈ (last_scan token h).elim [] Inventory.scan := by
          rw [← run_models hr]
          exact List.mem_of_find?_eq_some hget
        cases hscan : last_scan token h with
        | none =>
          rw [hscan] at hmem
          cases hmem
        | some disk =>
          rw [hscan] at hmem
          exact ⟨model, h, a, r, o, [], disk, hmodel, rfl,
            ⟨effective_presents he, hroute, ⟨body, hparsed, hid, hslot, hprofile⟩, hget, ⟨ref, early, hstart⟩⟩, hscan, hmem⟩

theorem resident_asked_once : ∃ h a slot, Run shelf (some "s3cret") h a ∧ h.map Prod.snd = scan_then_loads ∧
    a.agent.fleet.slots.lookup 8081 = some slot ∧
    ∃ m h₁ a₁ r o h₂ disk, slot.model = some m ∧ h = h₁ ++ (a₁, .request r o) :: h₂ ∧
      Asked (some "s3cret") a₁ r o 8081 m slot.profile 1 ∧ last_scan (some "s3cret") h₁ = some disk ∧
      m ∈ Inventory.scan disk := by
  obtain ⟨a, slot, he, hl, hp⟩ := scan_then_loads_run
  exact ⟨_, a, slot, .of_exec he, Machine.visits_inputs he, hl, resident_asked (.of_exec he) hl hp⟩

/-! ## The answer to a load -/

theorem run_agent (hr : Run host token h a) : ∃ h', Agent.Run host h' a.agent := by
  induction hr with
  | nil => exact ⟨[], .nil⟩
  | snoc hr hst ih =>
    obtain ⟨h', hr'⟩ := ih
    cases step_trans hst with
    | load _ _ _ _ _ _ hs | unload _ _ hs | agent _ hs => exact ⟨_, hr'.snoc hs⟩
    | still | refresh | gpu | scan => exact ⟨h', hr'⟩

/-- A port no rank holds has its own slot listed, and nothing else. -/
theorem listed_once {b : Agent} {h' : Agent.History} (hr : Agent.Run host h' b) (hl : b.fleet.slots.lookup p = some slot)
    (hfree : PeerRanks.held p b.peers = false) :
    (Agent.slots host b).filter (·.port == p) = [Fleet.slot_info host slot] := by
  have hport : (Fleet.slot_info host slot).port = p := by
    obtain ⟨h'', hr'⟩ := Agent.run_fleet hr
    exact ((Fleet.run_inv hr').slot p slot hl).port_eq
  have hown : Fleet.slot_info host slot ∈ Fleet.own_slots host b.fleet :=
    List.mem_map.mpr ⟨⟨p, slot⟩, Fleet.mem_entries_iff.mpr hl, rfl⟩
  have hnodup : ((Fleet.own_slots host b.fleet).map (·.port)).Nodup := by
    rw [Agent.ports_own hr]
    exact b.fleet.slots.keys_nodup
  have hpeers : (PeerRanks.slots b.peers).filter (·.port == p) = [] := by
    apply List.filter_eq_nil_iff.mpr
    intro s hs hp
    have hheld : PeerRanks.held p b.peers = true := List.any_eq_true.mpr ⟨s, hs, hp⟩
    rw [hfree] at hheld
    cases hheld
  rw [Agent.slots, Fleet.handle_call_slots, List.filter_append, hpeers, List.append_nil]
  have hkey := Listing.filter_key hnodup _ hown
  rwa [hport] at hkey

theorem listed_alone {b : Api} {h' : Agent.History} (hr : Agent.Run host h' b.agent)
    (hl : b.agent.fleet.slots.lookup p = some slot) (hfree : PeerRanks.held p b.agent.peers = false) :
    ListedAlone host token b (Channel.to_payload (Fleet.slot_info host slot)) := by
  intro r o body hparsed hp hroute hlate
  have hport : (Fleet.slot_info host slot).port = p := by
    obtain ⟨h'', hr'⟩ := Agent.run_fleet hr
    exact ((Fleet.run_inv hr').slot p slot hl).port_eq
  refine ⟨(Agent.slots host b.agent).map Channel.to_payload, ?_, ?_⟩
  · simp [call, hparsed, authorized_eq, hp, dispatch, hroute, answer, hlate]
  · have honce := listed_once hr hl hfree
    rw [List.filter_map]
    show ((Agent.slots host b.agent).filter (·.port == (Fleet.slot_info host slot).port)).map Channel.to_payload = _
    rw [hport, honce]
    rfl

theorem call_load (hparsed : r.parsed = .params body) (hp : presents token r = true) (hroute : route r = .load) :
    call host token a r o = post_load host a body o := by
  simp [call, hparsed, authorized_eq, hp, dispatch, hroute]

theorem agent_load {b b' : Agent} {c : Fleet.LoadCall} (hst : Agent.step host b (.fleet (.load c)) = some b') :
    b' = { b with fleet := (Fleet.handle_call_load host c b.fleet).2 } := by
  simp only [Agent.step, Fleet.step, Option.ite_none_right_eq_some, Option.map_eq_some_iff, Option.some.injEq] at hst
  obtain ⟨-, s, ⟨-, rfl⟩, rfl⟩ := hst
  rfl

theorem answered_unknown (hm : Inventory.find a.models id = none) {profile : Profile} :
    LoadAnswered host token a id p profile o ⟨404, .unknown_model id⟩ a where
  status := .inr (.inl rfl)
  unknown := by simp [hm]
  conflict := by simp [hm]
  loaded := by simp [hm]
  listed h := by cases h
  turned_away _ := rfl
  failed h := by cases h
  others _ _ := rfl

section
variable {c : Fleet.LoadCall} {profile : Profile}

/-- The call the request makes of Fleet, for a model the catalogue has. -/
structure Calls (a : Api) (id : Val) (p : Port) (profile : Profile) (o : Outcome) (c : Fleet.LoadCall) : Prop where
  found : Inventory.find a.models id = some c.model
  port : c.port = p
  profile : c.profile = profile
  held : c.held = PeerRanks.held p a.agent.peers
  start : c.start = o.start

theorem Calls.load_ok_iff (hc : Calls a id p profile o c) :
    (∃ info, (Fleet.handle_call_load host c a.agent.fleet).1 = .ok info) ↔ PeerRanks.held p a.agent.peers = false ∧
      ∃ model slot, Inventory.find a.models id = some model ∧ a.agent.fleet.slots.lookup p = some slot ∧
        (Fleet.already_serving slot model profile = true ∨ ∃ pid ref early, o.start = .ok pid ref early) := by
  rw [Fleet.load_ok_iff, hc.held, hc.port, hc.profile, hc.start]
  refine and_congr_right fun _ => ?_
  constructor
  · rintro ⟨slot, hl, hx⟩
    exact ⟨c.model, slot, hc.found, hl, hx⟩
  · rintro ⟨model, slot, hm, hl, hx⟩
    rw [hc.found] at hm
    cases hm
    exact ⟨slot, hl, hx⟩

theorem Calls.others (hc : Calls a id p profile o c) {q : Port} (hq : q ≠ p) :
    (Fleet.handle_call_load host c a.agent.fleet).2.slots.lookup q = a.agent.fleet.slots.lookup q := by
  rw [← hc.port] at hq
  exact Fleet.load_others hq

theorem answered_ok (hr : Run host token h a') (hc : Calls a id p profile o c) {info : SlotInfo}
    (hx : (Fleet.handle_call_load host c a.agent.fleet).1 = .ok info)
    (ha : a' = { a with agent.fleet := (Fleet.handle_call_load host c a.agent.fleet).2 }) :
    LoadAnswered host token a id p profile o ⟨200, .slot (Channel.to_payload info)⟩ a' := by
  have hok := hc.load_ok_iff.mp ⟨info, hx⟩
  obtain ⟨slot, hl, rfl, hid, hup⟩ := Fleet.load_ok_slot hx
  obtain ⟨h', hr'⟩ := run_agent hr
  subst ha
  rw [hc.port] at hl
  have hport : (Fleet.slot_info host slot).port = p := by
    obtain ⟨h'', hr''⟩ := Agent.run_fleet hr'
    exact ((Fleet.run_inv hr'').slot p slot hl).port_eq
  refine ⟨.inl rfl, by simp [hc.found], by simp [hok.1], by simpa using hok, ?_, by simp, by simp, fun q hq => hc.others hq⟩
  intro _
  refine ⟨_, rfl, hport, ?_, hup, listed_alone hr' hl hok.1⟩
  show (slot.model.map (·.id)).map Val.str = some id
  rw [hid, (find_eq_some hc.found).1]
  rfl

theorem answered_error (hc : Calls a id p profile o c) {e : Fleet.LoadError}
    (hx : (Fleet.handle_call_load host c a.agent.fleet).1 = .error e)
    (ha : a' = { a with agent.fleet := (Fleet.handle_call_load host c a.agent.fleet).2 }) :
    LoadAnswered host token a id p profile o (load_response (.error e) p) a' := by
  have hnot : ¬ ∃ info, (Fleet.handle_call_load host c a.agent.fleet).1 = .ok info := by
    rintro ⟨info, hinfo⟩
    rw [hx] at hinfo
    cases hinfo
  rw [hc.load_ok_iff] at hnot
  have hheld : (Fleet.handle_call_load host c a.agent.fleet).1 = .error .peer_rank_resident ↔ c.held = true :=
    Fleet.load_held
  rw [hx, Except.error.injEq, hc.held] at hheld
  have hothers : ∀ q, q ≠ p → a'.agent.fleet.slots.lookup q = a.agent.fleet.slots.lookup q := by
    intro q hq
    rw [ha]
    exact hc.others hq
  rcases Fleet.handle_call_load_error hx with ⟨hs, hne⟩ | ⟨slot, reason, hL, hs, rfl⟩
  · have hsame : a' = a := by rw [ha, hs]
    cases e with
    | peer_rank_resident =>
      have hh := hheld.mp rfl
      exact ⟨by simp [load_response], by simp [load_response, hc.found], by simp [load_response, hc.found, hh],
        by simp [load_response, hh], by simp [load_response], fun _ => hsame, fun _ => .inl hsame, hothers⟩
    | unknown_slot =>
      have hh : ¬ PeerRanks.held p a.agent.peers = true := fun h => by cases hheld.mpr h
      exact ⟨by simp [load_response], by simp [load_response, hc.found], by simp [load_response, hh],
        by simpa [load_response] using hnot, by simp [load_response], fun _ => hsame, fun _ => .inl hsame, hothers⟩
    | start_failed reason => exact absurd rfl (hne reason)
  · have hh : ¬ PeerRanks.held p a.agent.peers = true := fun h => by cases hheld.mpr h
    refine ⟨by simp [load_response], by simp [load_response, hc.found], by simp [load_response, hh],
      by simpa [load_response] using hnot, by simp [load_response], by simp [load_response], ?_, hothers⟩
    intro _
    refine .inr ?_
    rw [ha, Fleet.load_failed hL hs, ← hc.port]
    exact AList.lookup_insert a.agent.fleet.slots

end

/-- **What a load answers.** 404 for a model the catalogue does not have, 409 for a port a rank of another
host holds, both without a change; 200 when the slot serves the model as asked or an engine starts, with
the one entry the slots then have for the port; else 422, the slot as it was or empty. -/
theorem load_answered (hr : Run host token h a) (hparsed : r.parsed = .params body) (hp : presents token r = true)
    (hroute : route r = .load) (hid : body.lookup "model" = some id) (hslot : body.lookup "slot" = some (.int p))
    (hlate : o.late = none) {resp : Response} (hc : call host token a r o = some (resp, a')) :
    LoadAnswered host token a id p (requested_profile body) o resp a' := by
  have hr' : Run host token (h ++ [(a, .request r o)]) a' := hr.snoc (by rw [step, hc, Option.map_some])
  rw [call_load hparsed hp hroute, post_load, hid, hslot] at hc
  simp only [hlate, reduceCtorEq, if_false] at hc
  cases hm : Inventory.find a.models id with
  | none =>
    rw [hm] at hc
    cases hc
    exact answered_unknown hm
  | some model =>
    rw [hm] at hc
    obtain ⟨agent, hst, he⟩ := Option.map_eq_some_iff.mp hc
    simp only [answer, hlate, reduceCtorEq, if_false] at he
    have hcalls : Calls a id p (requested_profile body) o (load_call a body model p o) := ⟨hm, rfl, rfl, rfl, rfl⟩
    obtain rfl := agent_load hst
    obtain ⟨rfl, rfl⟩ := Prod.mk.inj he
    cases hx : (Fleet.handle_call_load host (load_call a body model p o) a.agent.fleet).1 with
    | ok info => exact answered_ok hr' hcalls hx rfl
    | error e => exact answered_error hcalls hx rfl

theorem load_answered_a : ∃ h a resp a', Run shelf (some "s3cret") h a ∧ h.map Prod.snd = [.scan shelf] ∧
    call shelf (some "s3cret") a (load_a ["Bearer s3cret"]) (engine_ok 1) = some (resp, a') ∧ resp.status = 200 ∧
    LoadAnswered shelf (some "s3cret") a (.str "a") 8081
      (requested_profile [("model", .str "a"), ("slot", .int 8081)]) (engine_ok 1) resp a' := by
  have hc : ((Machine.exec (step shelf (some "s3cret")) (init shelf) [.scan shelf]).any fun a =>
      (call shelf (some "s3cret") a (load_a ["Bearer s3cret"]) (engine_ok 1)).any fun x => x.1.status == 200) = true := by
    decide +kernel
  obtain ⟨a, he, hc⟩ := (Option.any_eq_true _ _).mp hc
  obtain ⟨⟨resp, a'⟩, hc, hstatus⟩ := (Option.any_eq_true _ _).mp hc
  refine ⟨_, a, resp, a', .of_exec he, Machine.visits_inputs he, hc, by simpa using hstatus, ?_⟩
  exact load_answered (.of_exec he) rfl (by decide) rfl rfl rfl rfl hc

end

end Api

end AiroAgent
