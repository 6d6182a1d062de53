import AiroAgent.Fleet
import AiroAgent.LlamaCpp
import AiroAgent.Vllm

/-!
# Starting an engine process

`Instance.init/1` as `start_child` sees it: an answer of the adapter, a binary
for the engine, and the daemon that opens the port. An exception in any of them
is an error of `start_child` like any other.
-/

namespace AiroAgent.Instance

def raised : Reason := .other "raised"

def reason_of : LaunchError → Reason
  | .vllm_cluster_not_configured => .other "vllm_cluster_not_configured"
  | .raised => raised

/-- `Engine.adapter/1`, then the adapter's `launch_spec/3`: an unknown engine raises. -/
def launch_spec (host : Host) (model : ModelRef) (profile : Profile) (port : Port) : Except LaunchError LaunchSpec :=
  match model.engine with
  | .llama_cpp => LlamaCpp.launch_spec host model profile port
  | .vllm => Vllm.launch_spec host model profile port
  | .other _ => .error .raised

def honored_profile_keys : EngineName → List Key
  | .llama_cpp => LlamaCpp.honored_profile_keys
  | .vllm => Vllm.honored_profile_keys
  | .other _ => []

/-- `Map.keys(profile) -- honored`, sorted. -/
def ignored (engine : EngineName) (profile : Profile) : List Key :=
  (profile.keys.filter (· ∉ honored_profile_keys engine)).mergeSort fun a b => a.atom ≤ b.atom

def adapter_name : EngineName → String
  | .llama_cpp => "AiroAgent.Engine.LlamaCpp"
  | .vllm => "AiroAgent.Engine.Vllm"
  | .other atom => atom

def warn_unhonored_keys (model : ModelRef) (profile : Profile) : Option String :=
  match ignored model.engine profile with
  | [] => none
  | keys => some (adapter_name model.engine ++ ": ignoring profile key(s) " ++ ", ".intercalate (keys.map Key.atom) ++
      " for " ++ model.id ++ " — not read by this engine")

/-- What a started process has logged, and what opening its port came to. `daemon` is the latter, when its environment
is one the port takes. -/
def init (host : Host) (model : ModelRef) (profile : Profile) (port : Port) (daemon : Except Reason Unit) :
    Option String × Except Reason Unit :=
  match model.engine with
  -- `Engine.adapter/1` raises before the warning
  | .other _ => (none, .error raised)
  | .llama_cpp | .vllm =>
    (warn_unhonored_keys model profile,
      match launch_spec host model profile port with
      | .error e => .error (reason_of e)
      | .ok launch =>
        match host.engine_bin model.engine, port_env launch.env with
        | some _, some _ => daemon
        | _, _ => .error raised)

/-- `DynamicSupervisor.start_child/2` on an `Instance`, and the monitor Fleet puts on it. -/
def start_child (host : Host) (model : ModelRef) (profile : Profile) (port : Port) (daemon : Except Reason Unit)
    (pid : Pid) (ref : Ref) (early : Option Reason) : Fleet.StartChild :=
  match (init host model profile port daemon).2 with
  | .ok () => .ok pid ref early
  | .error reason => .error reason

variable {host : Host} {model : ModelRef} {profile : Profile} {port : Port} {daemon : Except Reason Unit}

theorem launch_of_init (h : (init host model profile port daemon).2 = .ok ()) :
    ∃ launch, launch_spec host model profile port = .ok launch := by
  unfold init at h
  cases hl : launch_spec host model profile port with
  | ok launch => exact ⟨launch, rfl⟩
  | error e =>
    rw [hl] at h
    cases he : model.engine with
    | llama_cpp =>
      rw [he] at h
      cases h
    | vllm =>
      rw [he] at h
      cases h
    | other atom =>
      rw [he] at h
      cases h

/-- A launch across hosts without a cluster configured never gets as far as the daemon. -/
theorem init_without_cluster (hm : model.engine = .vllm) {n : Int} (hn : 1 < n)
    (hp : (Vllm.resolve_profile host model profile).get .nnodes = .int n) (hc : host.vllm_cluster = none) :
    (init host model profile port daemon).2 = .error (.other "vllm_cluster_not_configured") := by
  unfold init launch_spec Vllm.launch_spec Vllm.cluster_launch
  simp only [hm, hp, hc, if_neg (Int.not_le.mpr hn)]
  rfl

end AiroAgent.Instance
