import AiroAgent.Types
import AiroAgent.Lib.Listing
import AiroAgent.Lib.Text

/-!
# The configuration of a host

What `runtime.exs` makes of the environment variables. A number that does not
parse stops the boot. What it asks of the machine itself comes with the
`Surroundings`: a name, the address of the default route, and the paths and
arithmetic that are not its own.
-/

namespace AiroAgent

inductive Role where
  | controller
  | observer
  deriving DecidableEq, Repr

structure Endpoint where
  uri : String
  role : Role
  deriving DecidableEq, Repr

inductive NotifierModule where
  | channel
  | log
  deriving DecidableEq, Repr

namespace Runtime

abbrev Env := String → Option String

/-- `base` is the part of a `Host` that no variable sets. -/
structure Surroundings where
  hostname : Option String := none
  primary_ip : Option String := none
  hub_cache : String := ""
  wrapper : String := "vllm-slot"
  parse_float : String → Option (Val × String) := fun _ => none
  base : Host

structure Config where
  host : Host
  api_port : Int
  api_token : Option String
  bind_ip : Nat × Nat × Nat × Nat
  airo_endpoints : List Endpoint
  notifier : NotifierModule

/-! ## Reading a variable -/

/-- `String.split/3` with `trim: true`. -/
def split_trim (sep : Char) (s : String) : List String := (Text.fields sep s).filter (· ≠ "")

/-- `String.to_integer/1`; anything but a whole decimal number raises. -/
def to_integer (s : String) : Option Int :=
  match Text.parse_int s.toList with
  | some (n, []) => some n
  | _ => none

variable (env : Env)

def slots : Option (List Port) :=
  (split_trim ',' ((env "AIRO_AGENT_SLOTS").getD "8081")).mapM fun p => to_integer (Text.trim p)

def known_engine : String → Option EngineName
  | "llama_cpp" => some .llama_cpp
  | "vllm" => some .vllm
  | _ => none

def engines : List EngineName :=
  match env "AIRO_AGENT_ENGINES" with
  | none | some "" => [.llama_cpp]
  | some csv =>
    match (split_trim ',' csv).filterMap fun name => known_engine (Text.trim name) with
    | [] => [.llama_cpp]
    | list => list

def llama_reasoning_budget : Option Int := to_integer ((env "AIRO_LLAMA_REASONING_BUDGET").getD "8192")

def llama_dry_multiplier (at_boot : Surroundings) : Option Val :=
  match at_boot.parse_float ((env "AIRO_LLAMA_DRY_MULTIPLIER").getD "0") with
  | some (f, "") => some (if f.eq (.float 0 0) then .nil else f)
  | _ => none

def vllm_extra_argv : Option (List String) := (env "AIRO_VLLM_EXTRA_ARGS").map (split_trim ' ')

def vllm_cluster : Option ClusterConfig :=
  match env "AIRO_VLLM_CLUSTER_WORKER_SSH", env "AIRO_VLLM_CLUSTER_MASTER_IP", env "AIRO_VLLM_CLUSTER_NCCL_IF" with
  | some worker_ssh, some master_ip, some nccl_if => some {
      worker_ssh
      master_ip
      worker_ip := (env "AIRO_VLLM_CLUSTER_WORKER_IP").or (Text.fields '@' worker_ssh).getLast?
      nccl_if
      nccl_hca := env "AIRO_VLLM_CLUSTER_NCCL_HCA"
      gid_index := env "AIRO_VLLM_CLUSTER_GID_INDEX" }
  | _, _, _ => none

/-! ## The Airos -/

def airo_socket_url : Option String := env "AIRO_SOCKET_URL"

def observer_urls : List String :=
  ((((split_trim ',' ((env "AIRO_OBSERVER_SOCKET_URLS").getD "")).map Text.trim).filter (· ≠ "")).eraseDups).filter
    fun url => some url ≠ airo_socket_url env

def airo_endpoints : List Endpoint :=
  (match airo_socket_url env with
    | some url => [⟨url, .controller⟩]
    | none => []) ++ (observer_urls env).map (⟨·, .observer⟩)

/-! ## Exposure -/

def advertise_host (at_boot : Surroundings) : String :=
  ((env "AIRO_AGENT_ADVERTISE_HOST").or at_boot.primary_ip).getD "127.0.0.1"

def exposed (at_boot : Surroundings) : Bool := advertise_host env at_boot ∉ ["127.0.0.1", "localhost", "::1"]

def host_id (at_boot : Surroundings) : String := ((env "AIRO_AGENT_HOST_ID").or at_boot.hostname).getD "unknown"

def engine_bin (at_boot : Surroundings) : EngineName → Option String
  | .llama_cpp => some ((env "LLAMA_SERVER_BIN").getD "llama-server")
  | .vllm => some ((env "VLLM_SLOT_BIN").getD at_boot.wrapper)
  | .other _ => none

def config (at_boot : Surroundings) : Option Config := do
  let slots ← slots env
  let budget ← llama_reasoning_budget env
  let dry ← llama_dry_multiplier env at_boot
  let api_port ← to_integer ((env "AIRO_AGENT_PORT").getD "4400")
  return {
    host := { at_boot.base with
      slots
      host_id := host_id env at_boot
      advertise_host := advertise_host env at_boot
      engine_bind_host := if exposed env at_boot then "0.0.0.0" else "127.0.0.1"
      vllm_image := env "VLLM_IMAGE"
      vllm_extra_argv := vllm_extra_argv env
      vllm_cluster := vllm_cluster env
      model_roots := [(env "AIRO_AGENT_MODEL_ROOT").getD at_boot.hub_cache]
      engines := engines env
      engine_bin := engine_bin env at_boot
      llama_cpp_lib_path := env "LLAMA_CPP_LIB"
      llama_cpp_reasoning_budget := .int budget
      llama_cpp_dry_multiplier := dry }
    api_port
    api_token := env "AIRO_AGENT_TOKEN"
    bind_ip := if exposed env at_boot then (0, 0, 0, 0) else (127, 0, 0, 1)
    airo_endpoints := airo_endpoints env
    notifier := if airo_endpoints env ≠ [] then .channel else .log }

/-! ## Who is what to the host -/

section
variable {env} {at_boot : Surroundings} {e : Endpoint} {url : String}

theorem mem_observer_urls : url ∈ observer_urls env ↔ url ≠ "" ∧ airo_socket_url env ≠ some url ∧
    ∃ item ∈ Text.fields ',' ((env "AIRO_OBSERVER_SOCKET_URLS").getD ""), Text.trim item = url := by
  simp only [observer_urls, split_trim, List.mem_filter, List.mem_eraseDups, List.mem_map, decide_eq_true_eq]
  constructor
  · intro h
    obtain ⟨⟨⟨item, ⟨hitem, -⟩, rfl⟩, hne⟩, hctrl⟩ := h
    exact ⟨hne, Ne.symm hctrl, item, hitem, rfl⟩
  · intro h
    obtain ⟨hne, hctrl, item, hitem, rfl⟩ := h
    refine ⟨⟨⟨item, ⟨hitem, ?_⟩, rfl⟩, hne⟩, Ne.symm hctrl⟩
    -- an empty entry would be empty after the trim
    rintro rfl
    exact hne rfl

theorem nodup_observer_urls : (observer_urls env).Nodup := (Listing.nodup_eraseDups _).filter _

theorem mem_airo_endpoints : e ∈ airo_endpoints env ↔
    (e.role = .controller ∧ airo_socket_url env = some e.uri) ∨ (e.role = .observer ∧ e.uri ∈ observer_urls env) := by
  obtain ⟨uri, role⟩ := e
  unfold airo_endpoints
  rw [List.mem_append, List.mem_map]
  cases airo_socket_url env with
  | none => cases role <;> simp
  | some url => cases role <;> simp [eq_comm]

theorem nodup_airo_endpoints : ((airo_endpoints env).map (·.uri)).Nodup := by
  have hobs : ((observer_urls env).map (⟨·, .observer⟩)).map Endpoint.uri = observer_urls env := by
    rw [List.map_map]
    exact List.map_id _
  unfold airo_endpoints
  rw [List.map_append, hobs, List.nodup_append']
  refine ⟨by cases airo_socket_url env <;> simp, nodup_observer_urls, ?_⟩
  intro url hurl hobs
  obtain ⟨-, hne, -⟩ := mem_observer_urls.mp hobs
  cases h : airo_socket_url env with
  | none => simp [h] at hurl
  | some ctrl =>
    simp only [h, List.map_cons, List.map_nil, List.mem_singleton] at hurl
    rw [hurl] at hne
    exact hne h

/-- **One controller.** An Airo is the controller exactly when its address is the
socket URL, and an observer exactly when it is listed as one and is not the
controller; no address is in the list of endpoints twice. -/
theorem endpoints_exact (env : Env) : ((airo_endpoints env).map (·.uri)).Nodup ∧
    ((airo_endpoints env).filter (·.role = .controller)).length ≤ 1 ∧
    ∀ e, e ∈ airo_endpoints env ↔
      (e.role = .controller ∧ env "AIRO_SOCKET_URL" = some e.uri) ∨
      (e.role = .observer ∧ e.uri ≠ "" ∧ env "AIRO_SOCKET_URL" ≠ some e.uri ∧
        ∃ item ∈ Text.fields ',' ((env "AIRO_OBSERVER_SOCKET_URLS").getD ""), Text.trim item = e.uri) := by
  refine ⟨nodup_airo_endpoints, ?_, ?_⟩
  · unfold airo_endpoints
    rw [List.filter_append, List.filter_map]
    cases airo_socket_url env <;> simp [Function.comp_def]
  · intro e
    rw [mem_airo_endpoints, mem_observer_urls]
    rfl

end

end Runtime

end AiroAgent
