import AiroAgent.Router

/-!
# The life of an instance

Once its daemon runs, an `Instance` asks its engine for the readiness path every
second. The first answer of 200 makes it scrape the engine for what it serves
with and cast that to Fleet; after it, the instance asks no more.
-/

namespace AiroAgent

structure Response where
  status : Nat
  body : Val

/-- What the engine answers on each path; nothing when it cannot be reached. -/
abbrev Http := String → Option Response

/-- `Map.get/2` on a decoded object. -/
def json_get (body : List (String × Val)) (key : String) : Val := (body.lookup key).getD .nil

namespace LlamaCpp

def ctx_total : Val → Val → Val
  | .int ctx, .int parallel => .int (ctx * parallel)
  | _, _ => .nil

/-- Settings that are no object raise, which is rescued in `runtime_props`. -/
def parse_props (body : List (String × Val)) : Option Fleet.Props :=
  match (body.lookup "default_generation_settings").getD (.map []) with
  | .map gen =>
    let ctx := json_get gen "n_ctx"
    let parallel := json_get body "total_slots"
    some {
      ctx
      parallel
      ctx_total := ctx_total ctx parallel
      engine_build := json_get body "build_info" }
  | _ => none

def runtime_props (http : Http) : Fleet.Props :=
  match http "/props" with
  | some ⟨200, .map body⟩ => (parse_props body).getD {}
  | _ => {}

end LlamaCpp

namespace Vllm

def parse_models (body : List (String × Val)) : Val :=
  match body.lookup "data" with
  | some (.list (.map model :: _)) =>
    match model.lookup "max_model_len" with
    | some (.int n) => .int n
    | _ => .nil
  | _ => .nil

def parse_version (body : List (String × Val)) : Val :=
  match body.lookup "version" with
  | some (.str v) => .str v
  | _ => .nil

/-- Whatever goes wrong counts as an empty object. -/
def get_json (http : Http) (path : String) : List (String × Val) :=
  match http path with
  | some ⟨200, .map body⟩ => body
  | _ => []

def runtime_props (http : Http) : Fleet.Props where
  ctx := parse_models (get_json http "/v1/models")
  parallel := .nil
  ctx_total := .nil
  engine_build := parse_version (get_json http "/version")

end Vllm

namespace Instance

/-- `timers` counts the `:check_ready` messages on their way to it. -/
structure State where
  model : ModelRef
  port : Port
  resolved_profile : Profile
  readiness : Readiness
  ready : Bool
  timers : Nat

def started (host : Host) (model : ModelRef) (profile : Profile) (port : Port) : Option State :=
  match launch_spec host model profile port with
  | .error _ => none
  | .ok launch => some {
      model
      port
      resolved_profile := resolved_profile host model profile
      readiness := launch.readiness
      ready := false
      timers := 1 }

def is_ready (http : Http) (s : State) : Bool :=
  match s.readiness with
  | .http_get path =>
    match http path with
    | some r => r.status == 200
    | none => false

def runtime_props (http : Http) (s : State) : Fleet.Props :=
  match s.model.engine with
  | .llama_cpp => LlamaCpp.runtime_props http
  | .vllm => Vllm.runtime_props http
  | .other _ => {}

def ready_props (http : Http) (s : State) : Fleet.Props :=
  { runtime_props http s with resolved_profile := some s.resolved_profile }

def handle_info_check_ready (http : Http) (s : State) : Option Fleet.Props × State :=
  if s.ready then (none, s)
  else if is_ready http s then (some (ready_props http s), { s with ready := true })
  else (none, { s with timers := s.timers + 1 })

/-- One message fewer in the mailbox, and the handler. -/
def check_ready (http : Http) (s : State) : Option Fleet.Props × State :=
  handle_info_check_ready http { s with timers := s.timers - 1 }

section
variable {host : Host} {model : ModelRef} {profile : Profile} {port : Port} {daemon : Except Reason Unit} {pid : Pid}
  {ref : Ref} {early : Option Reason} {http : Http} {s : State}

theorem started_of_start_child {pid' : Pid} {ref' : Ref} {early' : Option Reason}
    (h : start_child host model profile port daemon pid ref early = .ok pid' ref' early') :
    (∃ s, started host model profile port = some s) ∧ pid' = pid := by
  unfold start_child at h
  cases hi : (init host model profile port daemon).2 with
  | error reason =>
    rw [hi] at h
    cases h
  | ok u =>
    rw [hi] at h
    cases h
    obtain ⟨launch, hl⟩ := launch_of_init hi
    exact ⟨⟨_, by rw [started, hl]⟩, rfl⟩

theorem started_some (h : started host model profile port = some s) : s.model = model ∧ s.ready = false ∧ s.timers = 1 ∧
    s.resolved_profile = resolved_profile host model profile := by
  unfold started at h
  split at h
  · cases h
  · cases h
    exact ⟨rfl, rfl, rfl, rfl⟩

theorem check_ready_of_waiting (http : Http) (hr : s.ready = false) (ht : s.timers = 1) : check_ready http s =
    if is_ready http s then (some (ready_props http s), { s with ready := true, timers := 0 }) else (none, s) := by
  obtain ⟨model, port, resolved_profile, readiness, ready, timers⟩ := s
  cases hr
  cases ht
  rfl

theorem check_ready_model (http : Http) (s : State) : (check_ready http s).2.model = s.model := by
  unfold check_ready handle_info_check_ready
  split
  · rfl
  · split <;> rfl

end

end Instance

end AiroAgent
