import AiroAgent.Engine
import AiroAgent.HFCache

/-!
# The llama.cpp adapter

`LlamaCpp.launch_spec/3` and what it calls: the effective profile, and the argv
of `llama-server` with the projector that lies beside the model.
-/

namespace AiroAgent.LlamaCpp

/-! ## The effective profile -/

def mtp (model : ModelRef) : Bool := Text.contains (model.repo.getD "" ++ model.path) "MTP"

def default_profile (host : Host) (model : ModelRef) : Profile :=
  List.toAList [
    ⟨.ngl, .int 999⟩,
    ⟨.flash_attn, .str "on"⟩,
    ⟨.cache_type_k, .str "q8_0"⟩,
    ⟨.cache_type_v, .str "q8_0"⟩,
    ⟨.parallel, .int 1⟩,
    ⟨.jinja, .bool true⟩,
    ⟨.spec_type, if mtp model then .str "draft-mtp" else .nil⟩,
    ⟨.reasoning_budget, host.llama_cpp_reasoning_budget⟩,
    ⟨.dry_multiplier, host.llama_cpp_dry_multiplier⟩,
    ⟨.ld_library_path, match host.llama_cpp_lib_path with
      | some path => .str path
      | none => .nil⟩]

def resolve_profile (host : Host) (model : ModelRef) (profile : Profile) : Profile :=
  (default_profile host model).merge profile

def honored_profile_keys : List Key := [
  .ctx, .parallel, .extra_argv, .disable_thinking,
  .temperature, .top_p, .repeat_penalty, .presence_penalty, .frequency_penalty,
  .dry_multiplier, .reasoning_budget, .reasoning_format,
  .ngl, .n_cpu_moe, .flash_attn, .cache_type_k, .cache_type_v, .spec_type,
  .jinja, .chat_template, .mmproj, .ld_library_path]

/-! ## Projectors -/

/-- `String.downcase/1` as far as the letters of `mmproj` go: no other character has one of them for its lower case. -/
def projector (path : String) : Bool := Text.contains (Paths.basename path).toLower "mmproj"

def mmproj_sibling (host : Host) (path : String) : Option String :=
  (host.wildcard (Paths.dirname path) ".gguf").find? projector

def mmproj_value (host : Host) (path : String) : Val :=
  match mmproj_sibling host path with
  | some p => .str p
  | none => .nil

/-! ## Flags -/

/-- The budget of all sequences together; a `parallel` that is no number raises. -/
def total_ctx (host : Host) (profile : Profile) : Option Val :=
  match profile.get .ctx with
  | .int ctx =>
    match (profile.get .parallel).or (.int 1) with
    | .int n => some (.int (ctx * n))
    | .float m e => host.mul_float ctx m e
    | _ => none
  | _ => some .nil

def thinking_flags : Val → List String
  | .bool true => ["--reasoning", "off"]
  | _ => []

def reasoning_budget (profile : Profile) : Val :=
  match profile.get .disable_thinking with
  | .bool true => .nil
  | _ => profile.get .reasoning_budget

def flag (host : Host) (k : String) : Val → Option (List String)
  | .nil => some []
  | v => do some [k, ← host.to_string v]

def flags (host : Host) : List (String × Val) → Option (List String)
  | [] => some []
  | (k, v) :: kvs => do some ((← flag host k v) ++ (← flags host kvs))

def bool_flag (k : String) : Val → List String
  | .bool true => [k]
  | _ => []

/-! ## The launch -/

def argv (host : Host) (model : ModelRef) (profile : Profile) (port : Port) : Option (List String) := do
  let front ← flags host [
    ("--mmproj", (profile.get .mmproj).or (mmproj_value host model.path)),
    ("-c", ← total_ctx host profile),
    ("-ngl", profile.get .ngl),
    ("-ncmoe", profile.get .n_cpu_moe),
    ("--flash-attn", profile.get .flash_attn),
    ("--cache-type-k", profile.get .cache_type_k),
    ("--cache-type-v", profile.get .cache_type_v),
    ("--spec-type", profile.get .spec_type),
    ("--parallel", profile.get .parallel)]
  let back ← flags host [
    ("--chat-template", profile.get .chat_template),
    ("--reasoning-budget", reasoning_budget profile),
    ("--reasoning-format", profile.get .reasoning_format),
    ("--dry-multiplier", profile.get .dry_multiplier),
    ("--temp", profile.get .temperature),
    ("--top-p", profile.get .top_p),
    ("--repeat-penalty", profile.get .repeat_penalty),
    ("--presence-penalty", profile.get .presence_penalty),
    ("--frequency-penalty", profile.get .frequency_penalty)]
  host.words
    ((["-m", model.path, "--host", host.engine_bind_host, "--port", toString port] ++
      front ++
      bool_flag "--jinja" (profile.get .jinja) ++
      back ++
      thinking_flags (profile.get .disable_thinking)).map .str ++
      (profile.get .extra_argv).wrap)

def env (profile : Profile) : List (String × Val) :=
  match profile.get .ld_library_path with
  | .nil => []
  | p => [("LD_LIBRARY_PATH", p)]

def launch_spec (host : Host) (model : ModelRef) (profile : Profile) (port : Port) :
    Except LaunchError LaunchSpec :=
  let profile := resolve_profile host model profile
  match argv host model profile port with
  | some argv => .ok { argv, env := env profile, readiness := .http_get "/health" }
  | none => .error .raised

end AiroAgent.LlamaCpp
