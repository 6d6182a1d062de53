import AiroAgent.ClusterId
import AiroAgent.Engine
import Mathlib.Data.List.Sort

/-!
# The vLLM adapter

`Vllm.launch_spec/3` and what it calls: the effective profile, the argv of
`vllm serve` and the environment the `vllm-slot` wrapper reads.
-/

namespace AiroAgent.Vllm

/-! ## The effective profile -/

def default_ctx_cap : Int := 32768

def float_le (m e n : Int) : Bool := m * 10 ^ e.toNat ≤ n * 10 ^ (-e).toNat

/-- `min(ctx_max, 32768)`: any term that is no number comes after every number. -/
def default_ctx : Val → Val
  | .nil => .nil
  | .int n => .int (min n default_ctx_cap)
  | .float m e => if float_le m e default_ctx_cap then .float m e else .int default_ctx_cap
  | _ => .int default_ctx_cap

def default_profile (host : Host) (model : ModelRef) : Profile :=
  List.toAList [
    ⟨.tensor_parallel_size, .int 1⟩,
    ⟨.dtype, .str "auto"⟩,
    ⟨.trust_remote_code, .bool false⟩,
    ⟨.ctx, default_ctx model.ctx_max⟩,
    ⟨.extra_argv, match host.vllm_extra_argv with
      | some words => .list (words.map .str)
      | none => .nil⟩]

def resolve_profile (host : Host) (model : ModelRef) (profile : Profile) : Profile :=
  (default_profile host model).merge profile.reject_nil

def honored_profile_keys : List Key := [
  .ctx, .parallel, .extra_argv, .disable_thinking,
  .tensor_parallel_size, .gpu_memory_utilization, .dtype, .quantization,
  .kv_cache_dtype, .trust_remote_code,
  .nnodes, .image, .container_env, .entrypoint, Key.cmd_prefix, .encoding_file, .overlay_files]

/-! ## Flags -/

def flag (host : Host) (k : String) : Val → Option (List String)
  | .nil => some []
  | v => do some [k, ← host.to_string v]

def bool_flag (k : String) : Val → List String
  | .bool true => [k]
  | _ => []

def value_knobs : List (String × Key) := [
  ("--max-model-len", .ctx),
  ("--max-num-seqs", .parallel),
  ("--tensor-parallel-size", .tensor_parallel_size),
  ("--gpu-memory-utilization", .gpu_memory_utilization),
  ("--dtype", .dtype),
  ("--quantization", .quantization),
  ("--kv-cache-dtype", .kv_cache_dtype)]

def value_flags (host : Host) (profile : Profile) : List (String × Key) → Option (List String)
  | [] => some []
  | (k, key) :: knobs => do some ((← flag host k (profile.get key)) ++ (← value_flags host profile knobs))

def thinking_flags : Val → List String
  | .bool true => ["--default-chat-template-kwargs", "\x7b\"enable_thinking\": false\x7d"]
  | _ => []

/-! ## Tool calls -/

def tool_parser_for_template (template : String) : Option String :=
  if Text.contains template "<function=" then some "qwen3_xml"
  else if Text.contains template "<tool_call>" && Text.contains template "\x7b\"name\"" then some "hermes"
  else none

def path_join (dir name : String) : String :=
  if dir = "" then name
  else if dir.toList.getLast? = some '/' then dir ++ name
  else dir ++ "/" ++ name

/-- A tokenizer config that is one JSON string is taken for the template itself. -/
def chat_template (host : Host) (dir : String) : Option String :=
  match host.read_file (path_join dir "chat_template.jinja") with
  | some template => some template
  | none =>
    match host.read_file (path_join dir "tokenizer_config.json") with
    | none => none
    | some body =>
      match host.json_decode body with
      | some (.map m) =>
        match m.lookup "chat_template" with
        | some (.str t) => some t
        | _ => none
      | some (.str template) => some template
      | _ => none

def tool_parser_of (host : Host) (model : ModelRef) : Option String :=
  (chat_template host model.path).bind tool_parser_for_template

def reasoning_parser_flags (model : ModelRef) (extra : List String) : List String :=
  match model.family with
  | .str family =>
    if Text.starts_with family "qwen3" then
      if "--reasoning-parser" ∈ extra then [] else ["--reasoning-parser", "qwen3"]
    else []
  | _ => []

def tool_flags (host : Host) (model : ModelRef) (profile : Profile) : Option (List String) := do
  let extra ← host.words (profile.get .extra_argv).wrap
  if "--tool-call-parser" ∈ extra then some []
  else match tool_parser_of host model with
    | some parser =>
      some (["--enable-auto-tool-choice", "--tool-call-parser", parser] ++ reasoning_parser_flags model extra)
    | none => some []

/-! ## Two hosts -/

def cluster_env (cluster : ClusterConfig) : List (String × Val) := [
  ("AIRO_VLLM_CLUSTER", .str "1"),
  ("AIRO_VLLM_WORKER_SSH", .str cluster.worker_ssh),
  ("AIRO_VLLM_MASTER_IP", .str cluster.master_ip),
  ("AIRO_VLLM_WORKER_IP", .str (cluster.worker_ip.getD "")),
  ("AIRO_VLLM_NCCL_IF", .str cluster.nccl_if),
  ("AIRO_VLLM_NCCL_HCA", .str (cluster.nccl_hca.getD "")),
  ("AIRO_VLLM_GID_INDEX", .str (cluster.gid_index.getD ""))]

def cluster_identity_env (host : Host) (nnodes : Int) (port : Port) : List (String × Val) := [
  ("AIRO_VLLM_CLUSTER_ID", .str (cluster_id host port)),
  ("AIRO_VLLM_NNODES", .str (toString nnodes))]

def cluster_argv (cluster : ClusterConfig) (nnodes : Int) (port : Port) : List Val := [
  .str "--nnodes", .int nnodes,
  .str "--node-rank", .int 0,
  .str "--master-addr", .str cluster.master_ip,
  .str "--master-port", .int (port + 10000),
  .str "--distributed-executor-backend", .str "mp"]

def cluster_launch (host : Host) (profile : Profile) (port : Port) :
    Except LaunchError (List Val × List (String × Val)) :=
  match profile.get .nnodes with
  | .int n =>
    if n ≤ 1 then .ok ([], [])
    else match host.vllm_cluster with
      | none => .error .vllm_cluster_not_configured
      | some cluster => .ok (cluster_argv cluster n port, cluster_env cluster ++ cluster_identity_env host n port)
  | _ => .ok ([], [])

/-! ## The environment of the wrapper -/

/-- Each entry as `key<sep>value`, sorted, one a line; nothing for a knob that is no map or an empty one. -/
def entry_lines (host : Host) (name sep : String) : Val → Option (List (String × Val))
  | .map (e :: es) => do
    let values ← host.words ((e :: es).map Prod.snd)
    let entries := (((e :: es).map Prod.fst).zip values).map fun kv => kv.1 ++ sep ++ kv.2
    some [(name, .str (Text.join '\n' (entries.mergeSort (· ≤ ·))))]
  | _ => some []

def container_env_pairs (host : Host) (profile : Profile) : Option (List (String × Val)) :=
  entry_lines host "AIRO_VLLM_CONTAINER_ENV" "=" (profile.get .container_env)

def overlay_files_pairs (host : Host) (profile : Profile) : Option (List (String × Val)) :=
  entry_lines host "AIRO_VLLM_OVERLAY_FILES" ":" (profile.get .overlay_files)

/-- An empty prefix would be unset on the way, so it travels as `none`. -/
def cmd_prefix_value : Val → Val
  | .str "" => .str "none"
  | v => v

open Key in
def wrapper_overrides (profile : Profile) : List (String × Val) :=
  [("AIRO_VLLM_ENTRYPOINT", profile.get .entrypoint),
    ("AIRO_VLLM_CMD_PREFIX", cmd_prefix_value (profile.get cmd_prefix)),
    ("AIRO_VLLM_ENCODING_FILE", profile.get .encoding_file)].filter
      fun p => match p.2 with | .nil => false | _ => true

def model_root (host : Host) : Val :=
  match host.model_roots with
  | root :: _ => .str root
  | [] => .nil

def vllm_image (host : Host) : Val :=
  match host.vllm_image with
  | some image => .str image
  | none => .nil

/-! ## The launch -/

def argv (host : Host) (model : ModelRef) (profile : Profile) (port : Port) (cluster_argv : List Val) :
    Option (List String) := do
  let values ← value_flags host profile value_knobs
  let tools ← tool_flags host model profile
  host.words
    ((["serve", model.path, "--served-model-name", model.id, "--host", host.engine_bind_host,
        "--port", toString port] ++
      values ++
      bool_flag "--trust-remote-code" (profile.get .trust_remote_code) ++
      thinking_flags (profile.get .disable_thinking) ++
      tools).map .str ++
      cluster_argv ++
      (profile.get .extra_argv).wrap)

def env (host : Host) (model : ModelRef) (profile : Profile) (cluster_env : List (String × Val)) :
    Option (List (String × Val)) := do
  let container_env ← container_env_pairs host profile
  let overlay_files ← overlay_files_pairs host profile
  some ([("VLLM_IMAGE", (profile.get .image).or ((vllm_image host).or (.str ""))),
      ("AIRO_AGENT_MODEL_ROOT", model_root host),
      ("AIRO_VLLM_SERVED_MODEL", .str model.id)] ++
    cluster_env ++ container_env ++ overlay_files ++ wrapper_overrides profile)

def launch_spec (host : Host) (model : ModelRef) (profile : Profile) (port : Port) :
    Except LaunchError LaunchSpec :=
  let profile := resolve_profile host model profile
  match cluster_launch host profile port with
  | .error e => .error e
  | .ok (cluster_argv, cluster_env) =>
    match argv host model profile port cluster_argv, env host model profile cluster_env with
    | some argv, some env => .ok { argv, env, readiness := .http_get "/health" }
    | _, _ => .error .raised

end AiroAgent.Vllm
