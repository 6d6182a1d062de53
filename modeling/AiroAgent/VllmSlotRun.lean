import AiroAgent.VllmSlot

/-!
# The run commands of the wrapper

`priv/engine/vllm-slot` from its first check to the words of the container
commands: the one it execs on a single host, or one for each rank. Whatever the
script reads besides its environment and its arguments is an answer of `World`.
A word that `printf %q` quotes for the worker is taken to arrive as it was.
-/

namespace AiroAgent.VllmSlot

abbrev Env := List (String × String)

structure World where
  /-- The names in the working directory that match a pattern. -/
  glob : String → List String := fun _ => []
  is_file : String → Bool := fun _ => true
  is_there : String → Bool := fun _ => true
  released : Bool := true
  worker_is_dir : String → Bool := fun _ => true
  worker_is_file : String → Bool := fun _ => true
  worker_released : Bool := true

structure Refusal where
  status : Nat
  message : String
  deriving DecidableEq

def refuse {α : Type} (status : Nat) (message : String) : Except Refusal α := .error { status, message }

/-! ## Words of the shell -/

def is_ifs (c : Char) : Bool := c = ' ' || c = '\t' || c = '\n'

def split_words (s : String) : List String := ((s.toList.splitOnP is_ifs).map String.ofList).filter (· ≠ "")

/-- `read -r -a`: the words of the first line. -/
def read_words (s : String) : List String := split_words (Text.cut '\n' s).1

def is_pattern (word : String) : Bool := word.toList.any fun c => c = '*' || c = '?' || c = '['

/-- Pathname expansion: a pattern without a match stays as it is. -/
def World.pathname (world : World) (word : String) : List String :=
  if is_pattern word ∧ world.glob word ≠ [] then world.glob word else [word]

/-- What an unquoted variable comes to. -/
def World.expand (world : World) (value : String) : List String := (split_words value).flatMap world.pathname

/-! ## The environment -/

/-- `: "${name:?why}"`. -/
def required (env : Env) (name why : String) : Except Refusal String :=
  match env.lookup name with
  | some v => if v = "" then refuse 1 (name ++ ": " ++ why) else .ok v
  | none => refuse 1 (name ++ ": " ++ why)

/-- The BEAM cannot send an empty value, so `none` stands for one. -/
def none_is_empty (v : String) : String := if v = "none" then "" else v

def model_root (env : Env) : Except Refusal String :=
  match env.lookup "AIRO_AGENT_MODEL_ROOT" with
  | some v => if v = "" then home_root else .ok v
  | none => home_root
where
  home_root : Except Refusal String :=
    match env.lookup "HOME" with
    | some home => .ok (home ++ "/.cache/huggingface/hub")
    | none => refuse 1 "HOME: unbound variable"

def runtime (env : Env) : String := getenv env "AIRO_CONTAINER_RUNTIME" "podman"

/-- Set but empty is honored, unlike the other variables. -/
def cmd_prefix_of (env : Env) : String := none_is_empty ((env.lookup "AIRO_VLLM_CMD_PREFIX").getD "vllm")

def entrypoint_args (env : Env) : List String :=
  if getenv env "AIRO_VLLM_ENTRYPOINT" "" = "" then []
  else ["--entrypoint", getenv env "AIRO_VLLM_ENTRYPOINT" ""]

def encoding_file (env : Env) : String := none_is_empty (getenv env "AIRO_VLLM_ENCODING_FILE" "")

def encoding_target (env : Env) : String :=
  getenv env "AIRO_VLLM_ENCODING_TARGET"
    "/usr/local/lib/python3.12/dist-packages/vllm/tokenizers/deepseek_v4_encoding.py"

def mount (src dst : String) : List String := ["-v", src ++ ":" ++ dst ++ ":ro"]

def encoding_args (world : World) (env : Env) : Except Refusal (List String) :=
  if encoding_file env = "" then .ok []
  else if world.is_file (encoding_file env) then .ok (mount (encoding_file env) (encoding_target env))
  else refuse 78 ("vllm-slot: AIRO_VLLM_ENCODING_FILE not found: " ++ encoding_file env)

def overlay_files (env : Env) : String := none_is_empty (getenv env "AIRO_VLLM_OVERLAY_FILES" "")

def overlay (world : World) (line : String) : Except Refusal (List String) :=
  let (src, dst) := Text.cut ':' line
  if src = "" ∨ dst = "" ∨ src = line then
    refuse 78 ("vllm-slot: AIRO_VLLM_OVERLAY_FILES entry is not host:target: " ++ line)
  else if world.is_there src then .ok (mount src dst)
  else refuse 78 ("vllm-slot: AIRO_VLLM_OVERLAY_FILES source not found: " ++ src)

def overlays (world : World) : List String → Except Refusal (List String)
  | [] => .ok []
  | line :: lines => do return (← overlay world line) ++ (← overlays world lines)

def overlay_args (world : World) (env : Env) : Except Refusal (List String) :=
  overlays world (Text.lines (overlay_files env))

def gpu_args (env : Env) : List String :=
  if getenv env "AIRO_GPU_ARGS" "" ≠ "" then read_words (getenv env "AIRO_GPU_ARGS" "")
  else if runtime env = "docker" then ["--gpus", "all"]
  else ["--device", "nvidia.com/gpu=all"]

def port_args (args : List String) : List String :=
  if slot_port args = "" then [] else ["-p", slot_port args ++ ":" ++ slot_port args]

def env_args (env : Env) : List String :=
  (Text.lines (getenv env "AIRO_VLLM_CONTAINER_ENV" "")).flatMap fun kv => ["-e", kv]

def vllm_run_args (env : Env) : List String :=
  read_words (getenv env "AIRO_VLLM_RUN_ARGS" "--ipc=host --ulimit memlock=-1 --ulimit stack=67108864")

/-! ## The parts every command shares -/

structure Parts where
  runtime : String
  name : String
  gpu_args : List String
  entrypoint_args : List String
  vllm_run_args : List String
  env_args : List String
  model_root : String
  encoding_args : List String
  overlay_args : List String
  image : String

def parts (world : World) (env : Env) (args : List String) : Except Refusal Parts := do
  let image ← required env "VLLM_IMAGE" "set VLLM_IMAGE to a vLLM OpenAI-server image"
  let model_root ← model_root env
  let encoding_args ← encoding_args world env
  let overlay_args ← overlay_args world env
  return {
    runtime := runtime env
    name := name args
    gpu_args := gpu_args env
    entrypoint_args := entrypoint_args env
    vllm_run_args := vllm_run_args env
    env_args := env_args env
    model_root
    encoding_args
    overlay_args
    image }

namespace Parts

def front (p : Parts) : List String :=
  [p.runtime, "run", "--rm", "--name", p.name] ++ p.gpu_args ++ p.entrypoint_args ++ p.vllm_run_args

def mounts (p : Parts) : List String := mount p.model_root p.model_root ++ p.encoding_args ++ p.overlay_args

/-- The one command of a single host. -/
def words (p : Parts) (args command : List String) : List String :=
  p.front ++ ["-e", "HF_HUB_OFFLINE=1"] ++ p.env_args ++ p.mounts ++ port_args args ++ [p.image] ++ command

end Parts

/-! ## Two ranks -/

def nccl_env (env : Env) (nccl_if : String) : List String :=
  ["-e", "NCCL_SOCKET_IFNAME=" ++ nccl_if, "-e", "GLOO_SOCKET_IFNAME=" ++ nccl_if] ++
    (if getenv env "AIRO_VLLM_NCCL_HCA" "" = "" then [] else ["-e", "NCCL_IB_HCA=" ++ getenv env "AIRO_VLLM_NCCL_HCA" ""]) ++
    (if getenv env "AIRO_VLLM_GID_INDEX" "" = "" then []
      else ["-e", "NCCL_IB_GID_INDEX=" ++ getenv env "AIRO_VLLM_GID_INDEX" ""])

def cluster_run_args : List String :=
  ["--network", "host", "--device", "/dev/infiniband", "--ulimit", "nofile=1048576:1048576"]

/-- The run command of one rank; `command` is what follows the image. -/
structure RankRun where
  parts : Parts
  cluster_labels : List String
  rank : String
  nccl_env : List String
  host_ip : String
  command : List String

def RankRun.words (r : RankRun) : List String :=
  r.parts.front ++ cluster_run_args ++ r.cluster_labels ++ label "airo.cluster.rank" r.rank ++
    ["-e", "HF_HUB_OFFLINE=1"] ++ r.nccl_env ++ ["-e", "VLLM_HOST_IP=" ++ r.host_ip] ++ r.parts.env_args ++
    r.parts.mounts ++ [r.parts.image] ++ r.command

def head_run (world : World) (env : Env) (args : List String) (p : Parts) (master_ip nccl_if : String) : RankRun where
  parts := p
  cluster_labels := cluster_labels env args
  rank := "0"
  nccl_env := nccl_env env nccl_if
  host_ip := master_ip
  command := world.expand (cmd_prefix_of env) ++ args

-- The prefix is quoted here: it is one word, or none when empty.
def worker_run (env : Env) (args : List String) (p : Parts) (nccl_if : String) : RankRun where
  parts := p
  cluster_labels := cluster_labels env args
  rank := "1"
  nccl_env := nccl_env env nccl_if
  host_ip := getenv env "AIRO_VLLM_WORKER_IP" ""
  command := (if cmd_prefix_of env = "" then [] else [cmd_prefix_of env]) ++ worker_args args

/-! ## The script -/

inductive Launched where
  | plain (words : List String)
  | cluster (head worker : RankRun)

def model_dir : List String → String
  | "serve" :: dir :: _ => dir
  | _ => ""

def cluster_launch (world : World) (env : Env) (args : List String) (p : Parts) : Except Refusal Launched := do
  let worker_ssh ← required env "AIRO_VLLM_WORKER_SSH" "cluster mode needs AIRO_VLLM_WORKER_SSH"
  let master_ip ← required env "AIRO_VLLM_MASTER_IP" "cluster mode needs AIRO_VLLM_MASTER_IP"
  let nccl_if ← required env "AIRO_VLLM_NCCL_IF" "cluster mode needs AIRO_VLLM_NCCL_IF"
  if model_dir args ≠ "" ∧ world.worker_is_dir (model_dir args) = false then
    refuse 78 ("vllm-slot: model snapshot missing on worker (" ++ worker_ssh ++ "): " ++ model_dir args ++
      "\nvllm-slot: sync it first, e.g. rsync -a <repo-dir> worker:<model-root>/")
  else if encoding_file env ≠ "" ∧ world.worker_is_file (encoding_file env) = false then
    refuse 78 ("vllm-slot: encoding file missing on worker (" ++ worker_ssh ++ "): " ++ encoding_file env)
  else if world.worker_released = false then
    refuse 125 ("vllm-slot: container name " ++ p.name ++ " still held on " ++ worker_ssh ++ " after 10s")
  else return .cluster (head_run world env args p master_ip nccl_if) (worker_run env args p nccl_if)

def launch (world : World) (env : Env) (args : List String) : Except Refusal Launched := do
  let p ← parts world env args
  if world.released = false then
    refuse 125 ("vllm-slot: container name " ++ p.name ++ " still held after 10s; refusing to launch")
  else if cluster_mode env then cluster_launch world env args p
  else return .plain (p.words args (world.expand (cmd_prefix_of env) ++ args))

end AiroAgent.VllmSlot
