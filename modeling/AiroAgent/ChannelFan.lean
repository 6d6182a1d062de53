import AiroAgent.Convergence
import AiroAgent.Runtime

/-!
# One client for each Airo

A host pushes to its controller and to any number of observers, through one
client process each. `publish/1` hands every event to all clients that live;
beyond that they share nothing but Fleet, which they only read. So each of them
runs like the single client of before, what holds of one view holds of all, and
whatever an Airo missed it can catch up on without anyone else moving.
-/

namespace AiroAgent.Channel

structure Fan where
  fleet : Fleet.Sys
  clients : String → Client

namespace Fan

/-- `client uri i` is a move of that client, never one of Fleet. -/
inductive Input where
  | fleet (i : Fleet.Input)
  | client (uri : String) (i : Channel.Input)

def own : Channel.Input → Bool
  | .fleet _ => false
  | _ => true

def net (s : Fan) (uri : String) : Net := ⟨s.fleet, s.clients uri⟩

def step (host : Host) (endpoints : List Endpoint) (s : Fan) : Input → Option Fan
  | .fleet i =>
    (Fleet.step host s.fleet i).map fun f =>
      ⟨f, fun uri => publish (f.events.drop s.fleet.events.length) (s.clients uri)⟩
  | .client uri i =>
    if uri ∈ endpoints.map (·.uri) ∧ own i = true then
      (Channel.step host (s.net uri) i).map fun n => { s with clients := Function.update s.clients uri n.client }
    else none

/-- Every endpoint has a client; other addresses have none. -/
def init (host : Host) (endpoints : List Endpoint) : Fan where
  fleet := Fleet.init host
  clients uri := { alive := decide (uri ∈ endpoints.map (·.uri)) }

abbrev History := List (Fan × Input)

abbrev Run (host : Host) (endpoints : List Endpoint) : History → Fan → Prop :=
  Machine.Run (step host endpoints) (init host endpoints)

def StartsSucceed (h : History) : Prop :=
  ∀ s c slot, (s, Input.fleet (.load c)) ∈ h → Fleet.Launches s.fleet c slot → ∃ pid ref early, c.start = .ok pid ref early

/-- The client has joined, is in the middle of nothing, and has no event waiting. -/
def Settled (c : Client) : Prop := c.socket.joined = true ∧ c.phase = .idle ∧ ∀ m ∈ c.mailbox, is_publish m = false

def view (s : Fan) (uri : String) : View := Channel.view (s.clients uri).pushed

/-! ## One client of many -/

def seen (uri : String) : Input → Option Channel.Input
  | .fleet i => some (.fleet i)
  | .client u i => if u = uri then some i else none

section
variable {host : Host} {endpoints : List Endpoint} {h : History} {s s' : Fan} {uri u v : String}

theorem own_fleet {n n' : Net} {i : Channel.Input} (hi : own i = true) (hst : Channel.step host n i = some n') :
    n'.fleet = n.fleet := by
  cases i with
  | fleet i => cases hi
  | arrive m =>
    simp only [Channel.step, Option.ite_none_right_eq_some, Option.some.injEq] at hst
    obtain ⟨-, rfl⟩ := hst
    rfl
  | handle | answer | push =>
    simp only [Channel.step] at hst
    split at hst <;> cases hst
    rfl
  | crash | start =>
    cases hst
    rfl

theorem step_seen {i : Input} {j : Channel.Input} (hj : seen uri i = some j)
    (hst : step host endpoints s i = some s') : Channel.step host (s.net uri) j = some (s'.net uri) := by
  cases i with
  | fleet i =>
    cases hj
    simp only [step, Option.map_eq_some_iff] at hst
    obtain ⟨f, hf, rfl⟩ := hst
    simp only [Channel.step, net, hf, Option.map_some]
  | client u i =>
    simp only [seen, Option.ite_none_right_eq_some, Option.some.injEq] at hj
    obtain ⟨rfl, rfl⟩ := hj
    simp only [step, Option.ite_none_right_eq_some, Option.map_eq_some_iff] at hst
    obtain ⟨⟨-, hi⟩, n, hn, rfl⟩ := hst
    rw [hn]
    have hfleet := own_fleet hi hn
    show some n = some (Net.mk s.fleet (Function.update s.clients u n.client u))
    rw [Function.update_self, show s.fleet = n.fleet from hfleet.symm]

theorem step_unseen {i : Input} (hi : seen uri i = none) (hst : step host endpoints s i = some s') :
    s'.net uri = s.net uri := by
  cases i with
  | fleet i => cases hi
  | client u i =>
    have hne : uri ≠ u := by
      rintro rfl
      simp [seen] at hi
    simp only [step, Option.ite_none_right_eq_some, Option.map_eq_some_iff] at hst
    obtain ⟨-, n, -, rfl⟩ := hst
    show Net.mk s.fleet (Function.update s.clients u n.client uri) = _
    rw [Function.update_of_ne hne]
    rfl

theorem run_net (hr : Run host endpoints h s) (hu : uri ∈ endpoints.map (·.uri)) :
    Channel.Run host (h.filterMap fun x => (seen uri x.2).map fun j => (x.1.net uri, j)) (s.net uri) := by
  have hinit : (init host endpoints).net uri = Channel.init host := by
    show Net.mk (Fleet.init host) { alive := decide (uri ∈ endpoints.map (·.uri)) } = _
    rw [decide_eq_true hu]
    rfl
  have hr' : Machine.Run (Channel.step host) ((init host endpoints).net uri) _ (s.net uri) :=
    hr.project (fun s => s.net uri) (seen uri) (fun _ _ _ _ hj hst => step_seen hj hst) fun _ _ _ hi hst => step_unseen hi hst
  rwa [hinit] at hr'

theorem starts_succeed_net (hr : Run host endpoints h s) (hs : StartsSucceed h) (uri : String) :
    Channel.StartsSucceed (h.filterMap fun x => (seen uri x.2).map fun j => (x.1.net uri, j)) := by
  intro n c slot hmem hL
  obtain ⟨⟨t, i⟩, ht, he⟩ := List.mem_filterMap.mp hmem
  obtain ⟨j, hj, he⟩ := Option.map_eq_some_iff.mp he
  cases he
  cases i with
  | fleet i =>
    cases hj
    exact hs t c slot ht hL
  | client u i =>
    simp only [seen, Option.ite_none_right_eq_some, Option.some.injEq] at hj
    obtain ⟨rfl, rfl⟩ := hj
    -- a client makes no move of Fleet
    obtain ⟨h₁, h₂, rfl⟩ := List.append_of_mem ht
    obtain ⟨-, t', hst⟩ := hr.split rfl
    simp only [step, own, Option.ite_none_right_eq_some, Bool.false_eq_true, and_false, false_and] at hst

theorem settled_view (hr : Run host endpoints h s) (hs : StartsSucceed h) (hu : uri ∈ endpoints.map (·.uri))
    (hset : Settled (s.clients uri)) {p : Port} (hp : p ∈ host.slots) : s.view uri p = standing s.fleet p := by
  have hI := run_inv (run_net hr hu) (starts_succeed_net hr hs uri)
  obtain ⟨hj, hi, hq⟩ := hset
  have hnil : queued (s.clients uri).mailbox = [] := by
    refine List.filterMap_eq_nil_iff.mpr fun m hm => ?_
    have hpub := hq m hm
    cases m with
    | publish e => cases hpub
    | _ => rfl
  have hview := hI.view hj (s.view uri) (by rw [Client.settled, show (s.net uri).client.phase = .idle from hi]; rfl) p hp
  rw [show (s.net uri).client.mailbox = (s.clients uri).mailbox from rfl, hnil] at hview
  exact hview

/-- **Airos agree.** In a run whose starts succeed, all Airos whose clients have settled have the
same view of every configured port, and it is the one `slots/0` gives. -/
theorem airos_agree (hr : Run host endpoints h s) (hs : StartsSucceed h) (hu : u ∈ endpoints.map (·.uri))
    (hv : v ∈ endpoints.map (·.uri)) (hsu : Settled (s.clients u)) (hsv : Settled (s.clients v)) :
    ∀ p ∈ host.slots, s.view u p = s.view v p ∧
      ∀ peers, s.view u p = listed (Fleet.handle_call_slots host peers s.fleet) p := by
  intro p hp
  have hview := settled_view hr hs hu hsu hp
  refine ⟨hview.trans (settled_view hr hs hv hsv hp).symm, fun peers => ?_⟩
  have hI := run_inv (run_net hr hu) (starts_succeed_net hr hs u)
  have hlisted := listed_standing (n := s.net u) hI.fleet peers hp
  exact hview.trans hlisted.symm

end

/-! A controller and an observer; the observer joins after an engine was started. -/

def two_airos : List Endpoint := [⟨"wss://airo/agent", .controller⟩, ⟨"ws://desk:4004/agent", .observer⟩]

def joining (uri : String) : List Input :=
  [.client uri (.arrive .connect), .client uri .handle, .client uri (.arrive .join), .client uri .handle,
    .client uri (.answer []), .client uri .push]

def late_observer : List Input :=
  joining "wss://airo/agent" ++ [.fleet (Fleet.load_ok Fleet.model_a 0), .client "wss://airo/agent" .handle,
    .client "ws://desk:4004/agent" .handle] ++ joining "ws://desk:4004/agent"

theorem StartsSucceed.of_inputs {h : History}
    (hs : ∀ c, Input.fleet (.load c) ∈ h.map Prod.snd → ∃ pid ref early, c.start = .ok pid ref early) : StartsSucceed h :=
  fun _ c _ hx _ => hs c (List.mem_map_of_mem hx)

theorem late_observer_settled : ∃ h s, Run Fleet.one_slot two_airos h s ∧ h.map Prod.snd = late_observer ∧
    StartsSucceed h ∧ Settled (s.clients "wss://airo/agent") ∧ Settled (s.clients "ws://desk:4004/agent") := by
  have he : ∃ s, Machine.exec (step Fleet.one_slot two_airos) (init Fleet.one_slot two_airos) late_observer = some s ∧
      (s.clients "wss://airo/agent").socket.joined = true ∧ (s.clients "wss://airo/agent").phase = .idle ∧
      (s.clients "wss://airo/agent").mailbox = [] ∧ (s.clients "ws://desk:4004/agent").socket.joined = true ∧
      (s.clients "ws://desk:4004/agent").phase = .idle ∧ (s.clients "ws://desk:4004/agent").mailbox = [] :=
    ⟨_, rfl, rfl, rfl, rfl, rfl, rfl, rfl⟩
  obtain ⟨s, he, hj, hp, hm, hj', hp', hm'⟩ := he
  have hs : StartsSucceed (Machine.visits (step Fleet.one_slot two_airos) (init Fleet.one_slot two_airos) late_observer) := by
    refine .of_inputs fun c hc => ?_
    rw [Machine.visits_inputs he] at hc
    have hload : Input.fleet (.load c) = .fleet (Fleet.load_ok Fleet.model_a 0) := by
      simpa [late_observer, joining] using hc
    cases hload
    exact ⟨0, 0, none, rfl⟩
  exact ⟨_, s, .of_exec he, Machine.visits_inputs he, hs, ⟨hj, hp, by simp [hm]⟩, hj', hp', by simp [hm']⟩

theorem airos_agree_late : ∃ h s, Run Fleet.one_slot two_airos h s ∧ h.map Prod.snd = late_observer ∧
    ∀ p ∈ Fleet.one_slot.slots, s.view "wss://airo/agent" p = s.view "ws://desk:4004/agent" p ∧
      ∀ peers, s.view "wss://airo/agent" p = listed (Fleet.handle_call_slots Fleet.one_slot peers s.fleet) p := by
  obtain ⟨h, s, hr, hi, hs, hsu, hsv⟩ := late_observer_settled
  exact ⟨h, s, hr, hi, airos_agree hr hs (by decide) (by decide) hsu hsv⟩

/-! ## Catching up -/

section
variable {host : Host} {endpoints : List Endpoint} {h : History} {s s' : Fan} {uri : String} {n n' : Net}

/-- What a client does by itself it does as one of many. -/
theorem exec_client (hu : uri ∈ endpoints.map (·.uri)) {tr : List Channel.Input} (ho : ∀ i ∈ tr, own i = true)
    (he : Machine.exec (Channel.step host) (s.net uri) tr = some n') :
    Machine.exec (step host endpoints) s (tr.map (.client uri)) =
      some { s with clients := Function.update s.clients uri n'.client } := by
  induction tr generalizing s with
  | nil =>
    cases he
    show some s = _
    rw [show (s.net uri).client = s.clients uri from rfl, Function.update_eq_self]
  | cons i tr ih =>
    rw [Machine.exec] at he
    have hi := ho i List.mem_cons_self
    cases hst : Channel.step host (s.net uri) i with
    | none =>
      rw [hst] at he
      cases he
    | some n₁ =>
      rw [hst] at he
      have hstep : step host endpoints s (.client uri i) =
          some { s with clients := Function.update s.clients uri n₁.client } := by
        simp only [step]
        rw [if_pos ⟨hu, hi⟩, hst]
        rfl
      have hnet : Fan.net { s with clients := Function.update s.clients uri n₁.client } uri = n₁ := by
        show Net.mk s.fleet (Function.update s.clients uri n₁.client uri) = n₁
        rw [Function.update_self, show s.fleet = n₁.fleet from (own_fleet hi hst).symm]
      rw [List.map_cons, Machine.exec, hstep]
      dsimp only
      rw [ih (fun j hj => ho j (List.mem_cons_of_mem i hj)) (by rw [hnet]; exact he)]
      simp only [Function.update_idem]

/-- The client gets to the end of what it is doing, its mailbox as it was. -/
theorem finishes (host : Host) (n : Net) : ∃ tr n', (∀ i ∈ tr, own i = true) ∧
    Machine.exec (Channel.step host) n tr = some n' ∧ n'.client.phase = .idle ∧
      n'.client.mailbox = n.client.mailbox := by
  have hpush : ∀ (slots : List SlotInfo) (c : Client), c.phase = .idle →
      (Client.push (.register (slots.map to_payload)) c).phase = .idle ∧
        (Client.push (.register (slots.map to_payload)) c).mailbox = c.mailbox := by
    intro slots c hc
    unfold Client.push
    split
    · exact ⟨hc, rfl⟩
    · exact ⟨hc, rfl⟩
  obtain ⟨fleet, alive, socket, phase, mailbox, pushed⟩ := n
  cases phase with
  | idle => exact ⟨[], _, (fun i hi => by cases hi), rfl, rfl, rfl⟩
  | answered slots =>
    obtain ⟨hidle, hm⟩ := hpush slots ⟨alive, socket, .idle, mailbox, pushed⟩ rfl
    exact ⟨[.push], _, by simp [own], rfl, hidle, hm⟩
  | calling =>
    obtain ⟨hidle, hm⟩ := hpush (Fleet.handle_call_slots host [] fleet) ⟨alive, socket, .idle, mailbox, pushed⟩ rfl
    exact ⟨[.answer [], .push], _, by simp [own], rfl, hidle, hm⟩

theorem handle_mailbox (m : Message) (rest : List Message) (c : Client) :
    (c.handle m rest).mailbox = rest ∨ (c.handle m rest).mailbox = [] := by
  have hreq : ∀ (r : Request) (c : Client), (Client.request r c).mailbox = c.mailbox := by
    intro r c
    cases r with
    | nothing | register => rfl
    | slot e =>
      show (Client.push (.slot (slot_event e)) c).mailbox = _
      unfold Client.push
      split <;> rfl
  unfold Client.handle
  split
  · exact .inl (hreq _ _)
  · exact .inl (hreq _ _)
  · exact .inr rfl

theorem drains (host : Host) : ∀ (k : Nat) (n : Net), n.client.mailbox.length ≤ k → ∃ tr n', (∀ i ∈ tr, own i = true) ∧
    Machine.exec (Channel.step host) n tr = some n' ∧ n'.client.phase = .idle ∧ n'.client.mailbox = [] := by
  intro k
  induction k with
  | zero =>
    intro n hk
    obtain ⟨tr, n', ho, he, hp, hm⟩ := finishes host n
    exact ⟨tr, n', ho, he, hp, hm.trans (List.eq_nil_of_length_eq_zero (Nat.le_zero.mp hk))⟩
  | succ k ih =>
    intro n hk
    obtain ⟨tr, n₁, ho, he, hp, hm⟩ := finishes host n
    cases hm₁ : n₁.client.mailbox with
    | nil => exact ⟨tr, n₁, ho, he, hp, hm₁⟩
    | cons m rest =>
      have hstep : Channel.step host n₁ .handle = some { n₁ with client := n₁.client.handle m rest } := by
        simp only [Channel.step, hp, hm₁]
      have hlen : (n₁.client.handle m rest).mailbox.length ≤ k := by
        rw [← hm, hm₁, List.length_cons] at hk
        rcases handle_mailbox m rest n₁.client with h | h <;> rw [h]
        · omega
        · exact Nat.zero_le k
      obtain ⟨tr', n', ho', he', hrest⟩ := ih { n₁ with client := n₁.client.handle m rest } hlen
      refine ⟨tr ++ .handle :: tr', n', ?_, ?_, hrest⟩
      · intro i hi
        rcases List.mem_append.mp hi with hi | hi
        · exact ho i hi
        · rcases List.mem_cons.mp hi with rfl | hi
          · rfl
          · exact ho' i hi
      · rw [Machine.exec_append he, Machine.exec, hstep]
        exact he'

/-- From an empty mailbox: connect, join, and the register that the join asks for. -/
theorem joins (host : Host) (hp : n.client.phase = .idle) (hm : n.client.mailbox = []) : ∃ tr n', (∀ i ∈ tr, own i = true) ∧
    Machine.exec (Channel.step host) n tr = some n' ∧ Settled n'.client := by
  obtain ⟨fleet, alive, socket, phase, mailbox, pushed⟩ := n
  cases hp
  cases hm
  have hnil : ∀ m ∈ ([] : List Message), is_publish m = false := fun m hm => by cases hm
  let tr : List Channel.Input := [.arrive .connect, .handle, .arrive .join, .handle, .answer [], .push]
  have htr : ∀ i ∈ tr, own i = true := by simp [tr, own]
  cases alive with
  | true => exact ⟨tr, _, htr, rfl, rfl, rfl, hnil⟩
  | false => exact ⟨.start :: tr, _, List.forall_mem_cons.mpr ⟨rfl, htr⟩, rfl, rfl, rfl, hnil⟩

/-- **Any Airo can catch up.** From every state of every run whose starts succeed, a client has moves
of its own, Fleet and the other clients standing still, that leave its Airo with the view
`slots/0` gives: whatever was dropped while it was away. -/
theorem airo_catches_up (hr : Run host endpoints h s) (hs : StartsSucceed h) (hu : uri ∈ endpoints.map (·.uri)) :
    ∃ (tr : List Channel.Input) (s' : Fan), (∀ i ∈ tr, own i = true) ∧
      Machine.exec (step host endpoints) s (tr.map (.client uri)) = some s' ∧
      s'.fleet = s.fleet ∧ (∀ v, v ≠ uri → s'.clients v = s.clients v) ∧
      ∀ p ∈ host.slots, ∀ peers, s'.view uri p = listed (Fleet.handle_call_slots host peers s.fleet) p := by
  obtain ⟨tr₁, n₁, ho₁, he₁, hp₁, hm₁⟩ := drains host _ (s.net uri) (Nat.le_refl _)
  obtain ⟨tr₂, n₂, ho₂, he₂, hset⟩ := joins host hp₁ hm₁
  have ho : ∀ i ∈ tr₁ ++ tr₂, own i = true := by
    intro i hi
    rcases List.mem_append.mp hi with hi | hi
    · exact ho₁ i hi
    · exact ho₂ i hi
  have he : Machine.exec (Channel.step host) (s.net uri) (tr₁ ++ tr₂) = some n₂ := (Machine.exec_append he₁).trans he₂
  have hexec := exec_client hu ho he
  refine ⟨tr₁ ++ tr₂, _, ho, hexec, rfl, fun v hv => Function.update_of_ne hv .., fun p hp peers => ?_⟩
  have hr' := hr.append_visits hexec
  have hs' : StartsSucceed (h ++ Machine.visits (step host endpoints) s ((tr₁ ++ tr₂).map (.client uri))) := by
    intro t c slot hmem hL
    rcases List.mem_append.mp hmem with hmem | hmem
    · exact hs t c slot hmem hL
    · have hin := List.mem_map_of_mem (f := Prod.snd) hmem
      rw [Machine.visits_inputs hexec] at hin
      obtain ⟨j, -, hj⟩ := List.mem_map.mp hin
      cases hj
  have hset' : Settled ((Function.update s.clients uri n₂.client) uri) := by
    rw [Function.update_self]
    exact hset
  exact ((airos_agree hr' hs' hu hu hset' hset') p hp).2 peers

end

theorem airo_catches_up_late : ∃ h s, Run Fleet.one_slot two_airos h s ∧ h.map Prod.snd = late_observer ∧
    ∃ (tr : List Channel.Input) (s' : Fan), (∀ i ∈ tr, own i = true) ∧
      Machine.exec (step Fleet.one_slot two_airos) s (tr.map (.client "ws://desk:4004/agent")) = some s' ∧
      s'.fleet = s.fleet ∧ (∀ v, v ≠ "ws://desk:4004/agent" → s'.clients v = s.clients v) ∧
      ∀ p ∈ Fleet.one_slot.slots, ∀ peers,
        s'.view "ws://desk:4004/agent" p = listed (Fleet.handle_call_slots Fleet.one_slot peers s.fleet) p := by
  obtain ⟨h, s, hr, hi, hs, -, -⟩ := late_observer_settled
  exact ⟨h, s, hr, hi, airo_catches_up hr hs (by decide)⟩

end Fan

end AiroAgent.Channel
