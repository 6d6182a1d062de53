import AiroAgent.Channel
import AiroAgent.FleetReplay

/-!
# Airo's view converges

Fleet, one channel client and the events between them. A register is a snapshot
taken while older events may still wait in the client's mailbox, so events are
replayed after newer state, and events are dropped while the topic is not
joined. What holds all along is that replaying the waiting events over what
Airo has, or is about to be sent, gives what Fleet has.
-/

namespace AiroAgent.Channel

structure Net where
  fleet : Fleet.Sys
  client : Client

/-- `arrive` brings a socket event or a timer to the client's mailbox, `handle` takes
the first message out. `answer` is Fleet's answer to the client's call, with the
peer ranks at that moment; `push` the register that follows. -/
inductive Input where
  | fleet (i : Fleet.Input)
  | arrive (m : Message)
  | handle
  | answer (peers : List SlotInfo)
  | push
  | crash
  | start

def publish (events : List Fleet.Emission) (c : Client) : Client :=
  if c.alive then { c with mailbox := c.mailbox ++ events.map fun e => .publish e.event } else c

def is_publish : Message → Bool
  | .publish _ => true
  | _ => false

def step (host : Host) (n : Net) : Input → Option Net
  | .fleet i => (Fleet.step host n.fleet i).map fun s => ⟨s, publish (s.events.drop n.fleet.events.length) n.client⟩
  | .arrive m =>
    if n.client.alive && !is_publish m then some { n with client := { n.client with mailbox := n.client.mailbox ++ [m] } }
    else none
  | .handle =>
    match n.client.phase, n.client.mailbox with
    | .idle, m :: rest => some { n with client := n.client.handle m rest }
    | _, _ => none
  | .answer peers =>
    match n.client.phase with
    | .calling => some { n with client := { n.client with phase := .answered (Fleet.handle_call_slots host peers n.fleet) } }
    | _ => none
  | .push =>
    match n.client.phase with
    | .answered slots => some { n with client := Client.push (.register (slots.map to_payload)) { n.client with phase := .idle } }
    | _ => none
  | .crash => some { n with client := n.client.crash }
  | .start => some { n with client := { n.client with alive := true } }

def init (host : Host) : Net := ⟨Fleet.init host, {}⟩

abbrev Run (host : Host) : List (Net × Input) → Net → Prop := Machine.Run (step host) (init host)

def StartsSucceed (h : List (Net × Input)) : Prop :=
  ∀ n c slot, (n, Input.fleet (.load c)) ∈ h → Fleet.Launches n.fleet c slot → ∃ pid ref early, c.start = .ok pid ref early

/-! ## What waits in the mailbox -/

def queued (mailbox : List Message) : List Event :=
  mailbox.filterMap fun
    | .publish e => some e
    | _ => none

def replay (view : View) (events : List Event) : View :=
  Replay.replay (·.port) (fun e => some (heard e.type e.resident_model)) view events

def listed (slots : List SlotInfo) : View := fun p => (slots.find? (·.port == p)).map fun s => (s.status, s.resident_model)

def standing (s : Fleet.Sys) : View := fun p => (s.slots.lookup p).map fun slot => (slot.status, slot.model.map (·.id))

/-- What Airo has once the register on its way is delivered, if there is one. -/
def Client.settled (c : Client) : Option View :=
  match c.phase with
  | .idle => some (view c.pushed)
  | .calling => none
  | .answered slots => some (listed slots)

structure Inv (host : Host) (n : Net) : Prop where
  fleet : Fleet.Inv host n.fleet
  dead : n.client.alive = false → n.client.mailbox = [] ∧ n.client.socket.joined = false
  queue : ∀ p ∈ host.slots, Replay.Touches (·.port) (queued n.client.mailbox) p →
    ∀ v, replay v (queued n.client.mailbox) p = standing n.fleet p
  view : n.client.socket.joined = true → ∀ v, n.client.settled = some v → ∀ p ∈ host.slots,
    replay v (queued n.client.mailbox) p = standing n.fleet p

theorem queued_append (a b : List Message) : queued (a ++ b) = queued a ++ queued b := List.filterMap_append

theorem queued_publish (es : List Fleet.Emission) :
    queued (es.map fun e => .publish e.event) = es.map (·.event) := by
  induction es with
  | nil => rfl
  | cons e es ih => simp only [List.map_cons, queued, List.filterMap_cons] at ih ⊢; rw [ih]

theorem queued_other {m : Message} (h : is_publish m = false) (rest : List Message) : queued (m :: rest) = queued rest := by
  cases m with
  | publish e => cases h
  | _ => rfl

theorem view_snoc (pushed : List Push) (p : Push) : view (pushed ++ [p]) = receive (view pushed) p := by
  rw [view, List.foldl_append]; rfl

theorem receive_register (v : View) (slots : List SlotInfo) : receive v (.register (slots.map to_payload)) = listed slots := by
  funext p
  show ((slots.map to_payload).find? (·.port == p)).map _ = _
  rw [List.find?_map, Option.map_map]
  rfl

/-! ## One step of Fleet -/

section
variable {host : Host} {s s' : Fleet.Sys} {p : Port}

theorem heard_terminal (expected : Bool) (slot : Fleet.Slot) (m : Option String) :
    heard (Fleet.terminal_type expected slot) m = (.empty, none) := by
  unfold Fleet.terminal_type
  split
  · rfl
  · split <;> rfl

/-- A step of Fleet leaves a port as it is and publishes nothing of it, or publishes
one event of it that says what it has become. -/
theorem step_standing {i : Fleet.Input} (hi : Fleet.Inv host s) (hst : Fleet.step host s i = some s') (hp : p ∈ host.slots)
    (hc : ¬ Fleet.Clears s i p) {es : List Fleet.Emission} (hes : s'.events = s.events ++ es) :
    (standing s' p = standing s p ∧ Fleet.sent p es = []) ∨
      ∃ e, Fleet.sent p es = [e] ∧ some (heard e.event.type e.event.resident_model) = standing s' p := by
  obtain ⟨slot, hl⟩ := Option.isSome_iff_exists.mp (AList.lookup_isSome.mpr ((hi.keys p).mpr hp))
  obtain ⟨slot', es', hl', hes', hps⟩ := Fleet.step_port hi hst hl
  rw [hes, Fleet.sent_append] at hes'
  have hs : standing s' p = some (slot'.status, slot'.model.map (·.id)) := by unfold standing; rw [hl']; rfl
  rw [hs, List.append_cancel_left hes']
  cases hps with
  | same _ => exact .inl ⟨by unfold standing; rw [hl]; rfl, rfl⟩
  | start e hp hL hcs => exact .inr ⟨_, rfl, rfl⟩
  | clear h => exact absurd h hc
  | mark_up e hpid hload => exact .inr ⟨_, rfl, rfl⟩
  | down e hr => exact .inr ⟨_, rfl, congrArg some (heard_terminal _ slot _)⟩

theorem sent_events (es : List Fleet.Emission) :
    (es.map (·.event)).filter (·.port = p) = (Fleet.sent p es).map (·.event) :=
  List.filter_map

theorem replay_more {q : List Event} {es : List Fleet.Emission} (v : View) (x : Option (Status × Option String))
    (h : (x = replay v q p ∧ Fleet.sent p es = []) ∨
      ∃ e, Fleet.sent p es = [e] ∧ some (heard e.event.type e.event.resident_model) = x) :
    replay v (q ++ es.map (·.event)) p = x := by
  rcases h with ⟨rfl, he⟩ | ⟨e, he, rfl⟩
  · refine Replay.replay_eq_of_filter ?_
    rw [List.filter_append, sent_events, he, List.map_nil, List.append_nil]
  · have hf : (q ++ es.map (·.event)).filter (·.port = p) = q.filter (·.port = p) ++ [e.event] := by
      rw [List.filter_append, sent_events, he]; rfl
    exact Replay.replay_last hf

theorem touches_more {q : List Event} {es : List Fleet.Emission} (he : Fleet.sent p es = [])
    (h : Replay.Touches (·.port) (q ++ es.map (·.event)) p) : Replay.Touches (·.port) q p := by
  rw [Replay.touches_iff_filter, List.filter_append, sent_events, he, List.map_nil, List.append_nil] at h
  exact Replay.touches_iff_filter.mpr h

end

/-! ## The invariant -/

section
variable {host : Host} {n n' : Net} {c c' : Client}

theorem inv_init (host : Host) : Inv host (init host) where
  fleet := Fleet.inv_init host
  dead h := by cases h
  queue p _ ht := by obtain ⟨e, he, -⟩ := ht; cases he
  view h := by cases h

theorem Inv.of_not_joined (hI : Inv host n) (hj : c.socket.joined = false) (hd : c.alive = false → c.mailbox = [])
    (hq : queued c.mailbox = queued n.client.mailbox ∨ queued c.mailbox = []) : Inv host { n with client := c } where
  fleet := hI.fleet
  dead h := ⟨hd h, hj⟩
  queue p hp ht v := by
    have ht : Replay.Touches (·.port) (queued c.mailbox) p := ht
    show replay v (queued c.mailbox) p = _
    rcases hq with hq | hq
    · rw [hq] at ht ⊢; exact hI.queue p hp ht v
    · rw [hq] at ht; obtain ⟨e, he, -⟩ := ht; cases he
  view h := by rw [hj] at h; cases h

theorem Inv.of_settled (hI : Inv host n) (ha : c.alive = true) (hq : queued c.mailbox = queued n.client.mailbox)
    (hv : c.socket.joined = true → ∀ v, c.settled = some v → ∀ p ∈ host.slots,
      replay v (queued n.client.mailbox) p = standing n.fleet p) : Inv host { n with client := c } where
  fleet := hI.fleet
  dead h := by rw [ha] at h; cases h
  queue p hp ht v := by
    have ht : Replay.Touches (·.port) (queued c.mailbox) p := ht
    show replay v (queued c.mailbox) p = _
    rw [hq] at ht ⊢
    exact hI.queue p hp ht v
  view hj v hs p hp := by
    show replay v (queued c.mailbox) p = _
    rw [hq]
    exact hv hj v hs p hp

theorem inv_fleet (hI : Inv host n) {i : Fleet.Input} {s : Fleet.Sys} (hst : Fleet.step host n.fleet i = some s)
    (hc : ∀ p, ¬ Fleet.Clears n.fleet i p) :
    Inv host ⟨s, publish (s.events.drop n.fleet.events.length) n.client⟩ := by
  obtain ⟨es, hes⟩ := Fleet.step_events hst
  rw [hes, List.drop_left]
  have hstand := fun p hp => step_standing (p := p) hI.fleet hst hp (hc p) hes
  have hi := Fleet.inv_step hI.fleet hst
  unfold publish
  cases ha : n.client.alive with
  | false =>
    obtain ⟨hm, hj⟩ := hI.dead ha
    simp only [Bool.false_eq_true, if_false]
    refine ⟨hi, hI.dead, fun p _ ht => ?_, fun h => ?_⟩
    · rw [hm] at ht; obtain ⟨e, he, -⟩ := ht; cases he
    · rw [hj] at h; cases h
  | true =>
    simp only [if_true]
    refine ⟨hi, (fun h => by cases h), fun p hp ht v => ?_, fun hj v hs p hp => ?_⟩
    · simp only [queued_append, queued_publish] at ht ⊢
      refine replay_more v _ ((hstand p hp).imp (fun h => ⟨?_, h.2⟩) id)
      rw [h.1, hI.queue p hp (touches_more h.2 ht) v]
    · simp only [queued_append, queued_publish]
      refine replay_more v _ ((hstand p hp).imp (fun h => ⟨?_, h.2⟩) id)
      rw [h.1, hI.view hj v hs p hp]

theorem listed_standing (hi : Fleet.Inv host n.fleet) (peers : List SlotInfo) {p : Port} (hp : p ∈ host.slots) :
    listed (Fleet.handle_call_slots host peers n.fleet) p = standing n.fleet p := by
  obtain ⟨slot, hl⟩ := Option.isSome_iff_exists.mp (AList.lookup_isSome.mpr ((hi.keys p).mpr hp))
  have h := congrArg (Option.map fun v : Fleet.PortView => (v.status, v.resident_model)) (Fleet.reported_own hi hl peers)
  unfold Fleet.reported at h
  rw [Option.map_map] at h
  unfold standing
  rw [hl]
  exact h

theorem inv_publish (hI : Inv host n) {e : Event} {rest : List Message} (hp : n.client.phase = .idle)
    (hm : n.client.mailbox = .publish e :: rest) : Inv host { n with client := n.client.handle (.publish e) rest } := by
  have hq : queued n.client.mailbox = e :: queued rest := by rw [hm]; rfl
  have hrest : ∀ p ∈ host.slots, Replay.Touches (·.port) (queued rest) p →
      ∀ v, replay v (queued rest) p = standing n.fleet p := by
    intro p hp ht v
    have h := hI.queue p hp (by rw [hq]; exact Replay.touches_cons.mpr (.inr ht)) v
    rw [hq] at h
    exact (Replay.replay_touched ht).trans h
  have halive : n.client.alive = true := by
    by_contra h
    have := (hI.dead (Bool.eq_false_iff.mpr h)).1
    rw [hm] at this; cases this
  unfold Client.handle dispatch apply_event handle_info_publish
  cases hj : n.client.socket.joined with
  | false =>
    simp only [hj, Bool.false_eq_true, if_false, Client.request]
    refine ⟨hI.fleet, fun h => ?_, hrest, fun h => ?_⟩
    · rw [halive] at h; cases h
    · rw [hj] at h; cases h
  | true =>
    simp only [hj, if_true, Client.request, Client.push]
    refine ⟨hI.fleet, fun h => ?_, hrest, fun _ v hs p hp' => ?_⟩
    · rw [halive] at h; cases h
    · simp only [Client.settled, hp, Option.some.injEq] at hs
      subst hs
      have h := hI.view hj (view n.client.pushed) (by rw [Client.settled, hp]) p hp'
      rw [hq] at h
      rw [view_snoc]
      exact h

theorem inv_handle (hI : Inv host n) {m : Message} {rest : List Message} (hp : n.client.phase = .idle)
    (hm : n.client.mailbox = m :: rest) : Inv host { n with client := n.client.handle m rest } := by
  by_cases hpub : is_publish m = true
  · cases m with
    | publish e => exact inv_publish hI hp hm
    | _ => cases hpub
  have hq : queued rest = queued n.client.mailbox := by
    rw [hm, queued_other (Bool.eq_false_iff.mpr hpub)]
  have halive : n.client.alive = true := by
    by_contra h
    have := (hI.dead (Bool.eq_false_iff.mpr h)).1
    rw [hm] at this; cases this
  have hidle : ∀ v, n.client.settled = some v → n.client.socket.joined = true → ∀ p ∈ host.slots,
      replay v (queued n.client.mailbox) p = standing n.fleet p := fun v hs hj => hI.view hj v hs
  have hsame : ∀ c : Client, c.settled = none → c.alive = true → c.mailbox = rest → Inv host { n with client := c } := by
    intro c hs ha hr
    refine hI.of_settled ha (by rw [hr, hq]) fun _ v hv => ?_
    rw [hs] at hv; cases hv
  unfold Client.handle dispatch
  cases m with
  | publish e => exact absurd rfl hpub
  | connect =>
    refine hI.of_settled halive hq fun hj v hs => hidle v ?_ hj
    exact hs
  | join => exact hsame _ rfl halive rfl
  | message event =>
    unfold handle_message
    by_cases h : event = "resync"
    · simp only [h, if_true]
      exact hsame _ rfl halive rfl
    · simp only [h, if_false]
      exact hI.of_settled halive hq fun hj v hs => hidle v hs hj
  | disconnect reconnected =>
    have hr : handle_disconnect reconnected (apply_event (.disconnect reconnected) n.client.socket) = .ok {} := by
      cases reconnected <;> rfl
    simp only [hr]
    refine hI.of_not_joined rfl (fun h => ?_) (.inl hq)
    rw [show n.client.alive = false from h] at halive; cases halive
  | topic_close rejoined reconnected =>
    cases rejoined with
    | ok _ =>
      refine hI.of_not_joined rfl (fun h => ?_) (.inl hq)
      rw [show n.client.alive = false from h] at halive; cases halive
    | error _ => exact hI.of_not_joined rfl (fun _ => rfl) (.inr rfl)
  | heartbeat =>
    unfold handle_info_heartbeat apply_event
    by_cases h : (n.client.socket.connected && n.client.socket.joined) = true
    · simp only [h, if_true]
      exact hsame _ rfl halive rfl
    · simp only [h]
      exact hI.of_settled halive hq fun hj v hs => hidle v hs hj

theorem inv_answer (hI : Inv host n) (peers : List SlotInfo) :
    Inv host { n with client :=
      { n.client with phase := .answered (Fleet.handle_call_slots host peers n.fleet) } } where
  fleet := hI.fleet
  dead := hI.dead
  queue := hI.queue
  view _ v hs p hp := by
    simp only [Client.settled, Option.some.injEq] at hs
    subst hs
    show replay _ (queued n.client.mailbox) p = standing n.fleet p
    by_cases ht : Replay.Touches (·.port) (queued n.client.mailbox) p
    · exact hI.queue p hp ht _
    · exact (Replay.replay_untouched ht).trans (listed_standing hI.fleet peers hp)

theorem inv_push (hI : Inv host n) {slots : List SlotInfo} (hph : n.client.phase = .answered slots) :
    Inv host { n with client := Client.push (.register (slots.map to_payload)) { n.client with phase := .idle } } := by
  unfold Client.push
  cases hj : n.client.socket.joined with
  | false =>
    simp only [Bool.false_eq_true, if_false]
    refine ⟨hI.fleet, hI.dead, hI.queue, fun h => ?_⟩
    rw [hj] at h; cases h
  | true =>
    simp only [if_true]
    refine ⟨hI.fleet, hI.dead, hI.queue, fun _ v hs => ?_⟩
    simp only [Client.settled, Option.some.injEq] at hs
    subst hs
    rw [view_snoc, receive_register]
    exact hI.view hj (listed slots) (by rw [Client.settled, hph])

theorem inv_step (hI : Inv host n) {i : Input} (hst : step host n i = some n')
    (hc : ∀ j, i = .fleet j → ∀ p, ¬ Fleet.Clears n.fleet j p) : Inv host n' := by
  cases i with
  | fleet i =>
    simp only [step, Option.map_eq_some_iff] at hst
    obtain ⟨s, hs, rfl⟩ := hst
    exact inv_fleet hI hs (hc i rfl)
  | arrive m =>
    simp only [step, Option.ite_none_right_eq_some, Bool.and_eq_true, Bool.not_eq_true', Option.some.injEq] at hst
    obtain ⟨⟨ha, hp⟩, rfl⟩ := hst
    refine hI.of_settled ha ?_ hI.view
    rw [queued_append, queued_other hp]
    exact List.append_nil _
  | handle =>
    simp only [step] at hst
    split at hst
    · rename_i hp hm
      cases hst
      exact inv_handle hI hp hm
    · cases hst
  | answer peers =>
    simp only [step] at hst
    split at hst
    · cases hst
      exact inv_answer hI peers
    · cases hst
  | push =>
    simp only [step] at hst
    split at hst
    · rename_i slots hp
      cases hst
      exact inv_push hI hp
    · cases hst
  | crash =>
    cases hst
    exact hI.of_not_joined rfl (fun _ => rfl) (.inr rfl)
  | start =>
    cases hst
    exact hI.of_settled rfl rfl hI.view

theorem StartsSucceed.of_inputs {h : List (Net × Input)}
    (hs : ∀ c, Input.fleet (.load c) ∈ h.map Prod.snd → ∃ pid ref early, c.start = .ok pid ref early) : StartsSucceed h :=
  fun _ c _ hx _ => hs c (List.mem_map_of_mem hx)

theorem StartsSucceed.init {h : List (Net × Input)} {x : Net × Input} (hs : StartsSucceed (h ++ [x])) : StartsSucceed h :=
  fun n c slot hx => hs n c slot (List.mem_append_left _ hx)

theorem StartsSucceed.not_clears {h : List (Net × Input)} {i : Input} (hs : StartsSucceed (h ++ [(n, i)])) :
    ∀ j, i = .fleet j → ∀ p, ¬ Fleet.Clears n.fleet j p := by
  intro j e p hx
  subst e
  obtain ⟨c, slot, reason, rfl, -, hL, -, he⟩ := hx
  obtain ⟨pid, ref, early, ho⟩ := hs n c slot (by simp) hL
  rw [he] at ho; cases ho

theorem run_inv {h : List (Net × Input)} (hr : Run host h n) (hs : StartsSucceed h) : Inv host n := by
  induction hr with
  | nil => exact inv_init host
  | snoc hr hst ih => exact inv_step (ih hs.init) hst hs.not_clears

end

/-- **Convergence.** In a run whose starts succeed, once the client has joined, is in
the middle of nothing and has no event waiting, what it has pushed gives Airo the
status and the model of every configured port as `slots/0` reports them. -/
theorem view_converges {host : Host} {h : List (Net × Input)} {n : Net} (hr : Run host h n) (hs : StartsSucceed h)
    (hj : n.client.socket.joined = true) (hi : n.client.phase = .idle)
    (hq : ∀ m ∈ n.client.mailbox, is_publish m = false) :
    ∀ p ∈ host.slots, ∀ peers, view n.client.pushed p = listed (Fleet.handle_call_slots host peers n.fleet) p := by
  have hI := run_inv hr hs
  have hnil : queued n.client.mailbox = [] := by
    refine List.filterMap_eq_nil_iff.mpr fun m hm => ?_
    have := hq m hm
    cases m with
    | publish e => cases this
    | _ => rfl
  intro p hp peers
  have h := hI.view hj (view n.client.pushed) (by rw [Client.settled, hi]) p hp
  rw [hnil] at h
  rw [listed_standing hI.fleet peers hp]
  exact h

/-- The model comes up while the client is asking for the slots: the register says up,
then the loading event that was waiting is pushed, then the up event. -/
theorem view_converges_stale : ∃ h n, Run Fleet.one_slot h n ∧
    h.map Prod.snd = [.arrive .connect, .handle, .arrive .join, .fleet (Fleet.load_ok Fleet.model_a 0), .handle,
      .fleet (.mark_up 0 {} 0), .answer [], .push, .handle, .handle] ∧
    StartsSucceed h ∧ n.client.socket.joined = true ∧ n.client.phase = .idle ∧
    (∀ m ∈ n.client.mailbox, is_publish m = false) ∧ n.client.pushed.length = 3 ∧
    ∀ p ∈ Fleet.one_slot.slots, ∀ peers,
      view n.client.pushed p = listed (Fleet.handle_call_slots Fleet.one_slot peers n.fleet) p := by
  let tr : List Input := [.arrive .connect, .handle, .arrive .join, .fleet (Fleet.load_ok Fleet.model_a 0), .handle,
    .fleet (.mark_up 0 {} 0), .answer [], .push, .handle, .handle]
  have he : ∃ n, Machine.exec (step Fleet.one_slot) (init Fleet.one_slot) tr = some n ∧
      n.client.socket.joined = true ∧ n.client.phase = .idle ∧ n.client.mailbox = [] ∧ n.client.pushed.length = 3 :=
    ⟨_, rfl, rfl, rfl, rfl, rfl⟩
  obtain ⟨n, he, hj, hi, hm, hp⟩ := he
  have hq : ∀ m ∈ n.client.mailbox, is_publish m = false := by simp [hm]
  have hs : StartsSucceed (Machine.visits (step Fleet.one_slot) (init Fleet.one_slot) tr) := by
    refine .of_inputs fun c hc => ?_
    have hc : Input.fleet (.load c) ∈ tr := hc
    simp only [tr, Fleet.load_ok, List.mem_cons, Input.fleet.injEq, Fleet.Input.load.injEq, reduceCtorEq, List.not_mem_nil,
      false_or, or_false] at hc
    subst hc
    exact ⟨0, 0, none, rfl⟩
  exact ⟨_, n, .of_exec he, rfl, hs, hj, hi, hq, hp, view_converges (.of_exec he) hs hj hi hq⟩

end AiroAgent.Channel
