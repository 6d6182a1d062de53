import AiroAgent.Agent
import AiroAgent.GPU
import AiroAgent.Inventory
import AiroAgent.Router

/-!
# The control API

Every request of the control plane over the state of the whole agent: Fleet and
the peer ranks, the cached catalogue, the last GPU snapshot. A request goes
through the JSON parser, then the bearer check, then the routes; between two of
them anything else may happen on the host. What a handler cannot compute is its
`Outcome`: what starting an engine comes to, what is on the disk at a rescan,
and whether the process it calls answers in time.
-/

namespace AiroAgent

namespace Inventory

/-- The `:id` asked for is any JSON value; only a string can be one. -/
def find (models : List ModelRef) : Val → Option ModelRef
  | .str id => get models id
  | _ => none

end Inventory

structure Api where
  agent : Agent
  models : List ModelRef
  gpu : GPU.Snapshot

namespace Api

/-! ## Requests and responses -/

/-- What `Plug.Parsers` makes of a body. It answers itself when it refuses one, before any other plug. -/
inductive Parsed where
  | refused (status : Nat)
  | params (body : List (String × Val))

structure Request where
  method : String
  path_info : List String
  authorization : List String
  parsed : Parsed

inductive Body where
  | none
  | error (text : String)
  | unknown_model (model : Val)
  | peer_rank_resident (slot : Int)
  | ok
  | status_ok
  | slot (payload : Channel.SlotPayload)
  | slots (payloads : List Channel.SlotPayload)
  | models (models : List Val)
  | gpu (snapshot : GPU.Snapshot)
  | openapi

structure Response where
  status : Nat
  body : Body

inductive Callee where
  | inventory
  | fleet
  | gpu
  deriving DecidableEq, Repr

/-- `late`: the process whose answer does not come in time. -/
structure Outcome where
  start : Fleet.StartChild
  polls : List Fleet.Poll := []
  now : Time := 0
  disk : Host
  late : Option Callee := none

inductive Route where
  | openapi
  | health
  | inventory
  | refresh
  | slots
  | gpu
  | load
  | unload
  | not_found
  deriving DecidableEq, Repr

def route (r : Request) : Route :=
  match r.method, r.path_info with
  | "GET", ["openapi"] => .openapi
  | "GET", ["health"] => .health
  | "GET", ["inventory"] => .inventory
  | "POST", ["inventory", "refresh"] => .refresh
  | "GET", ["slots"] => .slots
  | "GET", ["gpu"] => .gpu
  | "POST", ["load"] => .load
  | "POST", ["unload"] => .unload
  | _, _ => .not_found

/-! ## The bearer check -/

def bearer (r : Request) : Option String :=
  match r.authorization with
  | [value] =>
    match value.toList with
    | 'B' :: 'e' :: 'a' :: 'r' :: 'e' :: 'r' :: ' ' :: token => some (String.ofList token)
    | _ => none
  | _ => none

def authorized (token : Option String) (r : Request) : Bool :=
  match token with
  | none => true
  | some expected => bearer r == some expected

/-! ## Handlers -/

def inspect : Fleet.LoadError → String
  | .peer_rank_resident => ":peer_rank_resident"
  | .unknown_slot => ":unknown_slot"
  | .start_failed reason => Channel.serialize_reason reason

def optional : Option String → Val
  | none => .nil
  | some s => .str s

def engine_json : EngineName → String
  | .llama_cpp => "llama_cpp"
  | .vllm => "vllm"
  | .other atom => atom

def capability_json : Capability → String
  | .chat => "chat"
  | .vision => "vision"

def model_json (m : ModelRef) : Val := .map [
  ("id", .str m.id),
  ("repo", optional m.repo),
  ("revision", optional m.revision),
  ("quant", m.quant),
  ("family", m.family),
  ("size_bytes", match m.size_bytes with | none => .nil | some n => .int n),
  ("ctx_max", m.ctx_max),
  ("path", .str m.path),
  ("capabilities", .list (m.capabilities.map fun c => .str (capability_json c))),
  ("engine", .str (engine_json m.engine))]

/-- The exit of a call that timed out takes the request down. The process called goes on with its work. -/
def answer (callee : Callee) (o : Outcome) (resp : Response) : Response :=
  if o.late = some callee then ⟨500, .none⟩ else resp

def load_response : Except Fleet.LoadError SlotInfo → Int → Response
  | .ok info, _ => ⟨200, .slot (Channel.to_payload info)⟩
  | .error .peer_rank_resident, slot => ⟨409, .peer_rank_resident slot⟩
  | .error e, _ => ⟨422, .error (inspect e)⟩

def unload_response : Except Fleet.LoadError Unit → Int → Response
  | .ok (), _ => ⟨200, .ok⟩
  | .error .peer_rank_resident, slot => ⟨409, .peer_rank_resident slot⟩
  | .error e, _ => ⟨404, .error (inspect e)⟩

def requested_profile (body : List (String × Val)) : Profile :=
  Router.atomize_profile ((body.lookup "profile").getD (.map []))

def load_call (a : Api) (body : List (String × Val)) (model : ModelRef) (slot : Int) (o : Outcome) : Fleet.LoadCall where
  model := model
  port := slot
  profile := requested_profile body
  held := PeerRanks.held slot a.agent.peers
  polls := o.polls
  start := o.start
  now := o.now

/-- The lookup and Fleet's answer are one step, though every request runs in a process of its own: a rescan between
the two touches the catalogue alone, as it would behind the load. -/
def post_load (host : Host) (a : Api) (body : List (String × Val)) (o : Outcome) : Option (Response × Api) :=
  match body.lookup "model", body.lookup "slot" with
  | some id, some (.int slot) =>
    if o.late = some .inventory then some (⟨500, .none⟩, a)
    else
      match Inventory.find a.models id with
      | none => some (⟨404, .unknown_model id⟩, a)
      | some model =>
        let c := load_call a body model slot o
        (Agent.step host a.agent (.fleet (.load c))).map fun agent =>
          (answer .fleet o (load_response (Fleet.handle_call_load host c a.agent.fleet).1 slot), { a with agent })
  | some _, _ => some (⟨400, .error "missing or non-integer :slot"⟩, a)
  | none, _ => some (⟨400, .error "missing :model"⟩, a)

def post_unload (host : Host) (a : Api) (body : List (String × Val)) (o : Outcome) : Option (Response × Api) :=
  match body.lookup "slot" with
  | some (.int slot) =>
    let held := PeerRanks.held slot a.agent.peers
    (Agent.step host a.agent (.fleet (.unload slot held))).map fun agent =>
      (answer .fleet o (unload_response (Fleet.handle_call_unload slot held a.agent.fleet).1 slot), { a with agent })
  | _ => some (⟨400, .error "missing or non-integer :slot"⟩, a)

def dispatch (host : Host) (a : Api) (r : Request) (body : List (String × Val)) (o : Outcome) : Option (Response × Api) :=
  match route r with
  | .openapi => some (⟨200, .openapi⟩, a)
  | .health => some (⟨200, .status_ok⟩, a)
  | .inventory => some (answer .inventory o ⟨200, .models (a.models.map model_json)⟩, a)
  | .refresh =>
    -- a scan in which an adapter raises has no models, and is answered like any other
    let models := Inventory.scan o.disk
    some (answer .inventory o ⟨200, .models (models.map model_json)⟩, { a with models })
  | .slots => some (answer .fleet o ⟨200, .slots ((Agent.slots host a.agent).map Channel.to_payload)⟩, a)
  | .gpu => some (answer .gpu o ⟨200, .gpu a.gpu⟩, a)
  | .load => post_load host a body o
  | .unload => post_unload host a body o
  | .not_found => some (⟨404, .error "not_found"⟩, a)

def call (host : Host) (token : Option String) (a : Api) (r : Request) (o : Outcome) : Option (Response × Api) :=
  match r.parsed with
  | .refused status => some (⟨status, .none⟩, a)
  | .params body =>
    if authorized token r then dispatch host a r body o
    else some (⟨401, .error "unauthorized"⟩, a)

/-! ## Runs -/

/-- Beside requests: the messages of Fleet that no request sends, the polls, and the scan at the start. -/
inductive Input where
  | request (r : Request) (o : Outcome)
  | agent (i : Agent.Input)
  | gpu (snapshot : GPU.Snapshot)
  | scan (disk : Host)

def unasked : Agent.Input → Bool
  | .fleet (.load _) | .fleet (.unload _ _) => false
  | .fleet _ | .poll _ _ => true

def step (host : Host) (token : Option String) (a : Api) : Input → Option Api
  | .request r o => (call host token a r o).map Prod.snd
  | .agent i => if unasked i then (Agent.step host a.agent i).map fun agent => { a with agent } else none
  | .gpu snapshot => some { a with gpu := snapshot }
  | .scan disk => some { a with models := Inventory.scan disk }

def init (host : Host) : Api := ⟨Agent.init host, [], .unavailable⟩

abbrev History := List (Api × Input)

abbrev Run (host : Host) (token : Option String) : History → Api → Prop := Machine.Run (step host token) (init host)

/-- The one header the check lets through. -/
def presents (token : Option String) (r : Request) : Bool := token.all fun t => r.authorization == ["Bearer " ++ t]

/-- A request that a route of the API may change something for. -/
def effective (token : Option String) : Input → Bool
  | .request r _ =>
    match r.parsed with
    | .refused _ => false
    | .params _ => presents token r && (route r == .refresh || route r == .load || route r == .unload)
  | .agent _ | .gpu _ | .scan _ => true

inductive Trans (host : Host) (token : Option String) (a : Api) : Input → Api → Prop
  | still {r o} : (effective token (.request r o) = false ∨ route r ≠ .refresh) → Trans host token a (.request r o) a
  | refresh {r o} : effective token (.request r o) = true → route r = .refresh →
      Trans host token a (.request r o) { a with models := Inventory.scan o.disk }
  | load {r o body id slot model agent} : effective token (.request r o) = true → route r = .load →
      r.parsed = .params body → body.lookup "model" = some id → body.lookup "slot" = some (.int slot) →
      Inventory.find a.models id = some model →
      Agent.step host a.agent (.fleet (.load (load_call a body model slot o))) = some agent →
      Trans host token a (.request r o) { a with agent }
  | unload {r o slot agent} : effective token (.request r o) = true → route r = .unload →
      Agent.step host a.agent (.fleet (.unload slot (PeerRanks.held slot a.agent.peers))) = some agent →
      Trans host token a (.request r o) { a with agent }
  | agent {i agent} : unasked i = true → Agent.step host a.agent i = some agent →
      Trans host token a (.agent i) { a with agent }
  | gpu {snapshot} : Trans host token a (.gpu snapshot) { a with gpu := snapshot }
  | scan {disk} : Trans host token a (.scan disk) { a with models := Inventory.scan disk }

section
variable {host : Host} {token : Option String} {a a' : Api} {i : Input} {h : History} {r : Request} {o : Outcome}
  {body : List (String × Val)} {resp : Response}

/-! ## What a request needs -/

theorem bearer_eq_some {t : String} : bearer r = some t ↔ r.authorization = ["Bearer " ++ t] := by
  constructor
  · intro hb
    unfold bearer at hb
    split at hb
    · rename_i value hv
      split at hb
      · rename_i cs hcs
        cases hb
        rw [hv, List.singleton_inj, ← String.ofList_toList (s := value), hcs, ← String.ofList_toList (s := "Bearer " ++ _)]
        simp
      · cases hb
    · cases hb
  · intro hr
    simp [bearer, hr]

theorem authorized_eq : authorized token r = presents token r := by
  cases token with
  | none => rfl
  | some t =>
    rw [Bool.eq_iff_iff]
    simp [authorized, presents, bearer_eq_some]

/-! ## Every step is one of these -/

theorem post_load_cases (hc : post_load host a body o = some (resp, a')) :
    a' = a ∨ ∃ id slot model agent, body.lookup "model" = some id ∧ body.lookup "slot" = some (.int slot) ∧
      Inventory.find a.models id = some model ∧
      Agent.step host a.agent (.fleet (.load (load_call a body model slot o))) = some agent ∧ a' = { a with agent } := by
  unfold post_load at hc
  split at hc
  · rename_i id slot hid hslot
    split at hc
    · cases hc
      exact .inl rfl
    · split at hc
      · cases hc
        exact .inl rfl
      · rename_i model hm
        obtain ⟨agent, hst, he⟩ := Option.map_eq_some_iff.mp hc
        cases he
        exact .inr ⟨id, slot, model, agent, hid, hslot, hm, hst, rfl⟩
  · cases hc
    exact .inl rfl
  · cases hc
    exact .inl rfl

theorem post_unload_cases (hc : post_unload host a body o = some (resp, a')) :
    a' = a ∨ ∃ slot agent,
      Agent.step host a.agent (.fleet (.unload slot (PeerRanks.held slot a.agent.peers))) = some agent ∧
      a' = { a with agent } := by
  unfold post_unload at hc
  split at hc
  · rename_i slot hslot
    obtain ⟨agent, hst, he⟩ := Option.map_eq_some_iff.mp hc
    cases he
    exact .inr ⟨slot, agent, hst, rfl⟩
  · cases hc
    exact .inl rfl

theorem request_trans (hc : call host token a r o = some (resp, a')) : Trans host token a (.request r o) a' := by
  unfold call at hc
  split at hc
  · rename_i status hparsed
    cases hc
    exact .still (.inl (by simp [effective, hparsed]))
  · rename_i body hparsed
    rw [authorized_eq] at hc
    split at hc
    · rename_i hp
      unfold dispatch at hc
      cases hroute : route r with
      | load =>
        rw [hroute] at hc
        rcases post_load_cases hc with rfl | ⟨id, slot, model, agent, hid, hslot, hm, hst, rfl⟩
        · exact .still (.inr (by simp [hroute]))
        · exact .load (by simp [effective, hparsed, hp, hroute]) hroute hparsed hid hslot hm hst
      | unload =>
        rw [hroute] at hc
        rcases post_unload_cases hc with rfl | ⟨slot, agent, hst, rfl⟩
        · exact .still (.inr (by simp [hroute]))
        · exact .unload (by simp [effective, hparsed, hp, hroute]) hroute hst
      | refresh =>
        rw [hroute] at hc
        cases hc
        exact .refresh (by simp [effective, hparsed, hp, hroute]) hroute
      | _ =>
        rw [hroute] at hc
        cases hc
        exact .still (.inr (by simp [hroute]))
    · rename_i hp
      cases hc
      exact .still (.inl (by simp [effective, hparsed, hp]))

theorem step_trans (hst : step host token a i = some a') : Trans host token a i a' := by
  cases i with
  | request r o =>
    obtain ⟨⟨resp, a₁⟩, hc, rfl⟩ := Option.map_eq_some_iff.mp hst
    exact request_trans hc
  | agent i =>
    simp only [step, Option.ite_none_right_eq_some, Option.map_eq_some_iff] at hst
    obtain ⟨hu, agent, hs, rfl⟩ := hst
    exact .agent hu hs
  | gpu snapshot =>
    cases hst
    exact .gpu
  | scan disk =>
    cases hst
    exact .scan

/-! ## Who can change anything -/

theorem step_ineffective (he : effective token i = false) (hst : step host token a i = some a') : a' = a := by
  cases step_trans hst with
  | still => rfl
  | refresh hx | load hx | unload hx =>
    rw [he] at hx
    cases hx
  | agent | gpu | scan => cases he

theorem unauthorized (hparsed : r.parsed = .params body) (hp : presents token r = false) :
    call host token a r o = some (⟨401, .error "unauthorized"⟩, a) := by
  unfold call
  rw [hparsed, authorized_eq, hp]
  rfl

/-- **Only a presented token changes anything.** A run is the same run without the requests that
are not a refresh, a load or an unload with the token, and without the token the answer is 401. -/
theorem only_presented_change (hr : Run host token h a) :
    Run host token (h.filter fun x => effective token x.2) a ∧
      ∀ a r o body, r.parsed = .params body → presents token r = false →
        call host token a r o = some (⟨401, .error "unauthorized"⟩, a) := by
  refine ⟨?_, fun a r o body hparsed hp => unauthorized hparsed hp⟩
  have hkeep : ∀ s t i s', s = t → effective token i = true → step host token s i = some s' →
      ∃ t', step host token t i = some t' ∧ s' = t' := by
    rintro s _ i s' rfl - hst
    exact ⟨s', hst, rfl⟩
  have hdrop : ∀ s t i s', s = t → effective token i = false → step host token s i = some s' → s' = t := by
    rintro s _ i s' rfl hk hst
    exact step_ineffective hk hst
  obtain ⟨h', b, hr', rfl, hf⟩ := hr.filter Eq (fun x => effective token x.2) rfl hkeep hdrop
  have hsame : h.filter (fun x => effective token x.2) = h' := by
    apply List.forall₂_eq_eq_eq.le _ _
    exact hf.imp fun x y hxy => Prod.ext hxy.1 hxy.2
  rw [hsame]
  exact hr'

end

/-! A host with one GGUF file and one slot. Its token is "s3cret". -/

def shelf : Host := { Fleet.one_slot with model_roots := ["/m"], paths := ["/m/a.gguf"] }

def post (path_info : List String) (authorization : List String) (body : List (String × Val)) : Request :=
  ⟨"POST", path_info, authorization, .params body⟩

def load_a (authorization : List String) : Request :=
  post ["load"] authorization [("model", .str "a"), ("slot", .int 8081)]

def engine_ok (pid : Pid) : Outcome := { start := .ok pid pid none, disk := shelf }

def scan_then_loads : List Input := [
  .scan shelf,
  .request (load_a ["s3cret"]) (engine_ok 0),
  .request (load_a ["Bearer s3cret"]) (engine_ok 1)]

theorem only_presented_change_loads : ∃ h a, Run shelf (some "s3cret") h a ∧ h.map Prod.snd = scan_then_loads ∧
    Run shelf (some "s3cret") (h.filter fun x => effective (some "s3cret") x.2) a ∧
      ∀ a r o body, r.parsed = .params body → presents (some "s3cret") r = false →
        call shelf (some "s3cret") a r o = some (⟨401, .error "unauthorized"⟩, a) := by
  have he : (Machine.exec (step shelf (some "s3cret")) (init shelf) scan_then_loads).isSome = true := by decide +kernel
  obtain ⟨a, he⟩ := Option.isSome_iff_exists.mp he
  exact ⟨_, a, .of_exec he, Machine.visits_inputs he, only_presented_change (.of_exec he)⟩

end Api

end AiroAgent
