import AiroAgent.Lib.Prog
import AiroAgent.VllmSlotLife
import AiroAgent.VllmSlotRanks

/-!
# What the wrapper does before its run commands

`priv/engine/vllm-slot` up to its run commands, as the tests and the runtime
calls it makes on either host in their order. A signal only cuts this short, and
what follows the run commands of a cluster launch is its life.
-/

namespace AiroAgent.VllmSlot

open Life (Side)

/-- `[ -f ]`, `[ -d ]` and `[ -e ]`. -/
inductive Test where
  | file
  | dir
  | there
  deriving DecidableEq

/-- Both hosts, as the script finds them. -/
structure Hosts where
  glob : String → List String := fun _ => []
  found : Side → Test → String → Bool := fun _ _ _ => true
  /-- Whether the name is still taken after so many removals. -/
  held : Side → Nat → Bool := fun _ _ => false

def Hosts.world (hosts : Hosts) : World where
  glob := hosts.glob
  is_file := hosts.found .head .file
  is_there := hosts.found .head .there
  released := (List.range 100).any fun n => !hosts.held .head n
  worker_is_dir := hosts.found .worker .dir
  worker_is_file := hosts.found .worker .file
  worker_released := (List.range 100).any fun n => !hosts.held .worker n

inductive Act where
  | test (side : Side) (test : Test) (path : String) (found : Bool)
  | remove (side : Side)
  | inspect (side : Side) (held : Bool)
  | run (side : Side) (words : List String)
  deriving DecidableEq

def Act.runtime : Act → Bool
  | .test _ _ _ _ => false
  | _ => true

def Act.is_run : Act → Bool
  | .run _ _ => true
  | _ => false

abbrev Script := Prog Act Refusal

namespace Script

open Prog (lift emit)

/-! ## The script -/

variable (hosts : Hosts) (env : Env) (args : List String)

def test (side : Side) (t : Test) (path : String) : Script Bool := do
  emit (.test side t path (hosts.found side t path))
  return hosts.found side t path

/-- `[ -n "$path" ] && ! test`: what is not given is not missing. -/
def test_given (side : Side) (t : Test) (path : String) : Script Bool :=
  if path = "" then pure true else test hosts side t path

def encoding_args : Script (List String) := do
  if encoding_file env = "" then return []
  else if ← test hosts .head .file (encoding_file env) then return mount (encoding_file env) (encoding_target env)
  else lift (refuse 78 ("vllm-slot: AIRO_VLLM_ENCODING_FILE not found: " ++ encoding_file env))

/-- The variables `src` and `dst` of one line. -/
def overlay (line : String) : Script (String × String) := do
  let (src, dst) := Text.cut ':' line
  if src = "" ∨ dst = "" ∨ src = line then
    lift (refuse 78 ("vllm-slot: AIRO_VLLM_OVERLAY_FILES entry is not host:target: " ++ line))
  else if ← test hosts .head .there src then return (src, dst)
  else lift (refuse 78 ("vllm-slot: AIRO_VLLM_OVERLAY_FILES source not found: " ++ src))

def overlays : List String → Script (List (String × String))
  | [] => return []
  | line :: lines => do return (← overlay hosts line) :: (← overlays lines)

/-- `tries` more times from the `n`th on. -/
def release (side : Side) : Nat → Nat → Script Bool
  | 0, _ => return false
  | tries + 1, n => do
    emit (.remove side)
    emit (.inspect side (hosts.held side n))
    if hosts.held side n then release side tries (n + 1) else return true

def parts : Script Parts := do
  let image ← lift (required env "VLLM_IMAGE" "set VLLM_IMAGE to a vLLM OpenAI-server image")
  let model_root ← lift (model_root env)
  let encoding_args ← encoding_args hosts env
  let overlays ← overlays hosts (Text.lines (overlay_files env))
  return {
    runtime := runtime env
    name := name args
    gpu_args := gpu_args env
    entrypoint_args := entrypoint_args env
    vllm_run_args := vllm_run_args env
    env_args := env_args env
    model_root
    encoding_args
    overlay_args := overlays.flatMap fun m => mount m.1 m.2
    image }

/-- The EXIT trap. -/
def cleanup : Script Unit := do
  emit (.remove .head)
  emit (.remove .worker)

def cluster_launch (p : Parts) : Script Launched := do
  let worker_ssh ← lift (required env "AIRO_VLLM_WORKER_SSH" "cluster mode needs AIRO_VLLM_WORKER_SSH")
  let master_ip ← lift (required env "AIRO_VLLM_MASTER_IP" "cluster mode needs AIRO_VLLM_MASTER_IP")
  let nccl_if ← lift (required env "AIRO_VLLM_NCCL_IF" "cluster mode needs AIRO_VLLM_NCCL_IF")
  if (← test_given hosts .worker .dir (model_dir args)) = false then
    lift (refuse 78 ("vllm-slot: model snapshot missing on worker (" ++ worker_ssh ++ "): " ++ model_dir args ++
      "\nvllm-slot: sync it first, e.g. rsync -a <repo-dir> worker:<model-root>/"))
  else if (← test_given hosts .worker .file (encoding_file env)) = false then
    lift (refuse 78 ("vllm-slot: encoding file missing on worker (" ++ worker_ssh ++ "): " ++ encoding_file env))
  else if (← release hosts .worker 100 0) = false then
    cleanup
    lift (refuse 125 ("vllm-slot: container name " ++ p.name ++ " still held on " ++ worker_ssh ++ " after 10s"))
  else return .cluster (head_run hosts.world env args p master_ip nccl_if) (worker_run env args p nccl_if)

def checks : Script Launched := do
  let p ← parts hosts env args
  if (← release hosts .head 100 0) = false then
    lift (refuse 125 ("vllm-slot: container name " ++ p.name ++ " still held after 10s; refusing to launch"))
  else if cluster_mode env then cluster_launch hosts env args p
  else return .plain (p.words args (hosts.world.expand (cmd_prefix_of env) ++ args))

def run_all : Launched → Script Unit
  | .plain words => emit (.run .head words)
  | .cluster head worker => do
    emit (.run .worker worker.words)
    emit (.run .head head.words)

def script : Script Unit := do run_all (← checks hosts env args)

/-! ## Its outcome -/

variable {hosts env args}

@[simp] theorem result_lift {α : Type} (r : Except Refusal α) : (lift r : Script α).result = r := rfl

@[simp] theorem result_emit (a : Act) : (emit a : Script Unit).result = .ok () := rfl

theorem result_test {side : Side} {t : Test} {path : String} :
    (test hosts side t path).result = .ok (hosts.found side t path) := rfl

theorem result_test_given {side : Side} {t : Test} {path : String} :
    (test_given hosts side t path).result = .ok (path = "" || hosts.found side t path) := by
  unfold test_given
  by_cases h : path = ""
  · simp [h]
  · simp [h, result_test]

theorem result_encoding_args : (encoding_args hosts env).result = VllmSlot.encoding_args hosts.world env := by
  unfold encoding_args VllmSlot.encoding_args
  by_cases h : encoding_file env = ""
  · simp [h]
  · simp only [h, if_false, Prog.result_bind, result_test]
    cases hf : hosts.found .head .file (encoding_file env) <;> simp [hf, Hosts.world] <;> rfl

def mounts (pairs : List (String × String)) : List String := pairs.flatMap fun m => mount m.1 m.2

theorem result_overlay {line : String} :
    (overlay hosts line).result.map (fun m => mount m.1 m.2) = VllmSlot.overlay hosts.world line := by
  unfold overlay VllmSlot.overlay
  obtain ⟨src, dst⟩ := Text.cut ':' line
  by_cases h : src = "" ∨ dst = "" ∨ src = line
  · simp only [h, if_true, result_lift]
    rfl
  · simp only [h, if_false, Prog.result_bind, result_test]
    cases hf : hosts.found .head .there src <;> simp [hf, Hosts.world] <;> rfl

theorem result_overlays {lines : List String} :
    (overlays hosts lines).result.map mounts = VllmSlot.overlays hosts.world lines := by
  induction lines with
  | nil => rfl
  | cons line lines ih =>
    unfold overlays VllmSlot.overlays
    rw [← result_overlay, ← ih, Prog.result_bind]
    cases (overlay hosts line).result with
    | error e => rfl
    | ok m =>
      show ((overlays hosts lines >>= _).result).map mounts = _
      rw [Prog.result_bind]
      cases (overlays hosts lines).result <;> rfl

theorem result_release {side : Side} {tries n : Nat} :
    (release hosts side tries n).result = .ok ((List.range' n tries).any fun n => !hosts.held side n) := by
  induction tries generalizing n with
  | zero => rfl
  | succ tries ih =>
    rw [List.range'_succ, List.any_cons, release]
    simp only [Prog.result_bind, result_emit]
    cases hh : hosts.held side n with
    | false => rfl
    | true => exact ih

theorem result_parts : (parts hosts env args).result = VllmSlot.parts hosts.world env args := by
  unfold parts VllmSlot.parts overlay_args
  simp only [Prog.result_bind, result_lift, result_encoding_args, ← result_overlays]
  cases required env "VLLM_IMAGE" "set VLLM_IMAGE to a vLLM OpenAI-server image" with
  | error e => rfl
  | ok image =>
    cases VllmSlot.model_root env with
    | error e => rfl
    | ok root =>
      cases VllmSlot.encoding_args hosts.world env with
      | error e => rfl
      | ok encoding => cases (overlays hosts (Text.lines (overlay_files env))).result <;> rfl

theorem result_release_100 {side : Side} :
    (release hosts side 100 0).result = .ok ((List.range 100).any fun n => !hosts.held side n) := by
  rw [result_release, List.range_eq_range']

theorem given_eq_false {path : String} {found : Bool} :
    (decide (path = "") || found) = false ↔ path ≠ "" ∧ found = false := by
  simp

theorem result_cluster_launch {p : Parts} :
    (cluster_launch hosts env args p).result = VllmSlot.cluster_launch hosts.world env args p := by
  unfold cluster_launch VllmSlot.cluster_launch
  simp only [Prog.result_bind, result_lift]
  refine bind_congr fun worker_ssh => bind_congr fun master_ip => bind_congr fun nccl_if => ?_
  simp only [result_test_given, result_release_100, Prog.result_ite, Prog.result_bind, result_lift, Prog.result_pure,
    Prog.ok_bind, given_eq_false]
  rfl

theorem result_checks : (checks hosts env args).result = launch hosts.world env args := by
  unfold checks launch
  rw [Prog.result_bind, result_parts]
  refine bind_congr fun p => ?_
  simp only [result_release_100, Prog.result_ite, Prog.result_bind, result_lift, Prog.result_pure, Prog.ok_bind,
    result_cluster_launch]
  rfl

/-! ## No run command before the checks are through -/

section
variable {side : Side}

theorem runtime_of_is_run {act : Act} (h : act.is_run = true) : act.runtime = true := by
  cases act with
  | run side words => rfl
  | _ => cases h

-- Up to the first removal the script only looks for files.
theorem never_test {t : Test} {path : String} : Prog.Never (·.runtime = true) (test hosts side t path) :=
  (Prog.never_emit (by simp [Act.runtime])).bind fun _ => Prog.never_pure _

theorem never_test_given {t : Test} {path : String} : Prog.Never (·.runtime = true) (test_given hosts side t path) :=
  Prog.never_ite (Prog.never_pure _) never_test

theorem never_encoding_args : Prog.Never (·.runtime = true) (encoding_args hosts env) :=
  Prog.never_ite (Prog.never_pure _) (never_test.bind fun _ => Prog.never_ite (Prog.never_pure _) (Prog.never_lift _))

theorem never_overlay {line : String} : Prog.Never (·.runtime = true) (overlay hosts line) :=
  Prog.never_ite (Prog.never_lift _) (never_test.bind fun _ => Prog.never_ite (Prog.never_pure _) (Prog.never_lift _))

theorem never_overlays {lines : List String} : Prog.Never (·.runtime = true) (overlays hosts lines) := by
  induction lines with
  | nil => exact Prog.never_pure _
  | cons line lines ih => exact never_overlay.bind fun _ => ih.bind fun _ => Prog.never_pure _

theorem never_parts : Prog.Never (·.runtime = true) (parts hosts env args) :=
  (Prog.never_lift _).bind fun _ => (Prog.never_lift _).bind fun _ => never_encoding_args.bind fun _ =>
    never_overlays.bind fun _ => Prog.never_pure _

theorem never_release {tries n : Nat} : Prog.Never (·.is_run = true) (release hosts side tries n) := by
  induction tries generalizing n with
  | zero => exact Prog.never_pure _
  | succ tries ih =>
    refine (Prog.never_emit (by simp [Act.is_run])).bind fun _ => (Prog.never_emit (by simp [Act.is_run])).bind fun _ => ?_
    exact Prog.never_ite ih (Prog.never_pure _)

theorem never_cleanup : Prog.Never (·.is_run = true) cleanup :=
  (Prog.never_emit (by simp [Act.is_run])).bind fun _ => Prog.never_emit (by simp [Act.is_run])

theorem never_cluster_launch {p : Parts} : Prog.Never (·.is_run = true) (cluster_launch hosts env args p) := by
  refine (Prog.never_lift _).bind fun _ => (Prog.never_lift _).bind fun _ => (Prog.never_lift _).bind fun _ => ?_
  refine (never_test_given.mono fun _ => runtime_of_is_run).bind fun _ => Prog.never_ite (Prog.never_lift _) ?_
  refine (never_test_given.mono fun _ => runtime_of_is_run).bind fun _ => Prog.never_ite (Prog.never_lift _) ?_
  refine never_release.bind fun _ => Prog.never_ite ?_ (Prog.never_pure _)
  exact never_cleanup.bind fun _ => Prog.never_lift _

theorem never_checks : Prog.Never (·.is_run = true) (checks hosts env args) := by
  refine (never_parts.mono fun _ => runtime_of_is_run).bind fun _ => never_release.bind fun _ => Prog.never_ite (Prog.never_lift _) ?_
  exact Prog.never_ite never_cluster_launch (Prog.never_pure _)

theorem release_succ {tries n : Nat} : release hosts side (tries + 1) n =
    (let rest := if hosts.held side n then release hosts side tries (n + 1) else pure true
    ⟨.remove side :: .inspect side (hosts.held side n) :: rest.trace, rest.result⟩) := rfl

theorem inspect_of_released {tries n : Nat} (h : (release hosts side tries n).result = .ok true) :
    Act.inspect side false ∈ (release hosts side tries n).trace := by
  induction tries generalizing n with
  | zero => cases h
  | succ tries ih =>
    rw [release_succ] at h ⊢
    cases hh : hosts.held side n with
    | false => exact .tail _ (.head _)
    | true =>
      simp only [hh, if_true] at h ⊢
      exact .tail _ (.tail _ (ih h))

theorem inspect_of_cluster_launch {p : Parts} {launched : Launched}
    (h : (cluster_launch hosts env args p).result = .ok launched) :
    Act.inspect .worker false ∈ (cluster_launch hosts env args p).trace := by
  unfold cluster_launch at h ⊢
  obtain ⟨worker_ssh, hr, h, -⟩ := Prog.of_bind_ok h
  refine Prog.mem_trace_bind_ok hr ?_
  obtain ⟨master_ip, hr, h, -⟩ := Prog.of_bind_ok h
  refine Prog.mem_trace_bind_ok hr ?_
  obtain ⟨nccl_if, hr, h, -⟩ := Prog.of_bind_ok h
  refine Prog.mem_trace_bind_ok hr ?_
  obtain ⟨snapshot, hr, h, -⟩ := Prog.of_bind_ok h
  refine Prog.mem_trace_bind_ok hr ?_
  cases snapshot with
  | false => cases h
  | true =>
    obtain ⟨encoding, hr, h, -⟩ := Prog.of_bind_ok h
    refine Prog.mem_trace_bind_ok hr ?_
    cases encoding with
    | false => cases h
    | true =>
      obtain ⟨free, hr, h, -⟩ := Prog.of_bind_ok h
      cases free with
      | false => cases h
      | true => exact Prog.mem_trace_bind (inspect_of_released hr)

theorem inspect_of_checks (hc : cluster_mode env = true) {launched : Launched}
    (h : (checks hosts env args).result = .ok launched) (side : Side) : Act.inspect side false ∈ (checks hosts env args).trace := by
  unfold checks at h ⊢
  obtain ⟨p, hr, h, -⟩ := Prog.of_bind_ok h
  refine Prog.mem_trace_bind_ok hr ?_
  obtain ⟨free, hr, h, -⟩ := Prog.of_bind_ok h
  cases free with
  | false => cases h
  | true =>
    cases side with
    | head => exact Prog.mem_trace_bind (inspect_of_released hr)
    | worker =>
      refine Prog.mem_trace_bind_ok hr ?_
      simp only [hc, if_true] at h ⊢
      exact inspect_of_cluster_launch h

end

end Script

/-! ## What the checks come to -/

/-- The overlay loop takes the line. -/
def Fits (world : World) (line : String) : Prop :=
  (Text.cut ':' line).1 ≠ "" ∧ (Text.cut ':' line).2 ≠ "" ∧ (Text.cut ':' line).1 ≠ line ∧
    world.is_there (Text.cut ':' line).1 = true

def overlay_lines (env : Env) : List String := Text.lines (overlay_files env)

def overlay_sources (env : Env) : List String := (overlay_lines env).map fun line => (Text.cut ':' line).1

/-- A variable that is set and not empty. -/
def Given (env : Env) (name : String) : Prop := ∃ v, env.lookup name = some v ∧ v ≠ ""

/-- All that a cluster launch checks. -/
structure Passes (world : World) (env : Env) (args : List String) : Prop where
  image : Given env "VLLM_IMAGE"
  root : Given env "AIRO_AGENT_MODEL_ROOT" ∨ (env.lookup "HOME").isSome = true
  encoding : encoding_file env = "" ∨ world.is_file (encoding_file env) = true
  overlays : ∀ line ∈ overlay_lines env, Fits world line
  released : world.released = true
  connection : ∀ name ∈ ["AIRO_VLLM_WORKER_SSH", "AIRO_VLLM_MASTER_IP", "AIRO_VLLM_NCCL_IF"], Given env name
  snapshot : model_dir args = "" ∨ world.worker_is_dir (model_dir args) = true
  worker_encoding : encoding_file env = "" ∨ world.worker_is_file (encoding_file env) = true
  worker_released : world.worker_released = true

section
variable {world : World} {env : Env} {args : List String}

theorem required_ok_iff {name why : String} : (∃ v, required env name why = .ok v) ↔ Given env name := by
  unfold required Given
  cases env.lookup name with
  | none => simp [refuse]
  | some v => by_cases hv : v = "" <;> simp [hv, refuse]

theorem model_root_ok_iff : (∃ root, model_root env = .ok root) ↔
    Given env "AIRO_AGENT_MODEL_ROOT" ∨ (env.lookup "HOME").isSome = true := by
  have hhome : (∃ root, model_root.home_root env = .ok root) ↔ (env.lookup "HOME").isSome = true := by
    unfold model_root.home_root
    cases env.lookup "HOME" <;> simp [refuse]
  unfold model_root Given
  cases env.lookup "AIRO_AGENT_MODEL_ROOT" with
  | none => simp [hhome]
  | some v => by_cases hv : v = "" <;> simp [hv, hhome]

theorem encoding_args_ok_iff : (∃ words, encoding_args world env = .ok words) ↔
    encoding_file env = "" ∨ world.is_file (encoding_file env) = true := by
  unfold encoding_args
  by_cases h : encoding_file env = ""
  · simp [h]
  · cases world.is_file (encoding_file env) <;> simp [h, refuse]

theorem overlay_ok_iff {line : String} : (∃ words, overlay world line = .ok words) ↔ Fits world line := by
  unfold overlay Fits
  obtain ⟨src, dst⟩ := Text.cut ':' line
  by_cases h : src = "" ∨ dst = "" ∨ src = line
  · simp only [h, if_true, refuse]
    refine ⟨fun hx => absurd hx (by simp), fun hx => ?_⟩
    obtain h | h | h := h
    · exact absurd h hx.1
    · exact absurd h hx.2.1
    · exact absurd h hx.2.2.1
  · rw [not_or, not_or] at h
    cases hf : world.is_there src <;> simp [h, hf, refuse]

theorem overlays_ok_iff {lines : List String} :
    (∃ words, overlays world lines = .ok words) ↔ ∀ line ∈ lines, Fits world line := by
  induction lines with
  | nil => simp [overlays]
  | cons line lines ih =>
    rw [List.forall_mem_cons, ← ih, ← overlay_ok_iff, overlays]
    simp only [bind_eq_ok]
    refine ⟨fun h => ?_, fun h => ?_⟩
    · obtain ⟨_, ws, hws, ws', hws', -⟩ := h
      exact ⟨⟨ws, hws⟩, ws', hws'⟩
    · obtain ⟨⟨ws, hws⟩, ws', hws'⟩ := h
      exact ⟨ws ++ ws', ws, hws, ws', hws', rfl⟩

theorem parts_ok_iff : (∃ p, parts world env args = .ok p) ↔ Given env "VLLM_IMAGE" ∧
    (Given env "AIRO_AGENT_MODEL_ROOT" ∨ (env.lookup "HOME").isSome = true) ∧
    (encoding_file env = "" ∨ world.is_file (encoding_file env) = true) ∧ ∀ line ∈ overlay_lines env, Fits world line := by
  rw [← required_ok_iff, ← model_root_ok_iff, ← encoding_args_ok_iff, ← overlays_ok_iff]
  unfold parts
  simp only [bind_eq_ok]
  refine ⟨fun h => ?_, fun h => ?_⟩
  · obtain ⟨p, image, himage, root, hroot, words, hwords, words', hwords', -⟩ := h
    exact ⟨⟨image, himage⟩, ⟨root, hroot⟩, ⟨words, hwords⟩, words', hwords'⟩
  · obtain ⟨⟨image, himage⟩, ⟨root, hroot⟩, ⟨words, hwords⟩, words', hwords'⟩ := h
    exact ⟨_, image, himage, root, hroot, words, hwords, words', hwords', rfl⟩

theorem cluster_launch_ok_iff {p : Parts} : (∃ launched, cluster_launch world env args p = .ok launched) ↔
    (∀ name ∈ ["AIRO_VLLM_WORKER_SSH", "AIRO_VLLM_MASTER_IP", "AIRO_VLLM_NCCL_IF"], Given env name) ∧
    (model_dir args = "" ∨ world.worker_is_dir (model_dir args) = true) ∧
    (encoding_file env = "" ∨ world.worker_is_file (encoding_file env) = true) ∧ world.worker_released = true := by
  have hgiven : ∀ {path : String} {b : Bool}, ¬ (path ≠ "" ∧ b = false) ↔ path = "" ∨ b = true := by
    intro path b
    cases b <;> simp
  simp only [List.forall_mem_cons, List.not_mem_nil, false_implies, implies_true, and_true, ← hgiven]
  unfold cluster_launch
  simp only [bind_eq_ok]
  refine ⟨fun h => ?_, fun h => ?_⟩
  · obtain ⟨launched, ssh, hssh, ip, hip, nccl, hnccl, h⟩ := h
    refine ⟨⟨required_ok_iff.mp ⟨ssh, hssh⟩, required_ok_iff.mp ⟨ip, hip⟩, required_ok_iff.mp ⟨nccl, hnccl⟩⟩, ?_⟩
    split at h
    · cases h
    · next hdir =>
      split at h
      · cases h
      · next hfile =>
        split at h
        · cases h
        · next hfree => exact ⟨hdir, hfile, by simpa using hfree⟩
  · obtain ⟨⟨hssh, hip, hnccl⟩, hdir, hfile, hfree⟩ := h
    obtain ⟨ssh, hssh⟩ := required_ok_iff.mpr hssh
    obtain ⟨ip, hip⟩ := required_ok_iff.mpr hip
    obtain ⟨nccl, hnccl⟩ := required_ok_iff.mpr hnccl
    refine ⟨.cluster (head_run world env args p ip nccl) (worker_run env args p nccl), ssh, hssh, ip, hip, nccl, hnccl, ?_⟩
    rw [if_neg hdir, if_neg hfile, if_neg (by simp [hfree])]
    rfl

theorem launch_cluster_iff (hc : cluster_mode env = true) :
    (∃ launched, launch world env args = .ok launched) ↔ Passes world env args := by
  unfold launch
  simp only [bind_eq_ok, hc, if_true]
  refine ⟨fun h => ?_, fun h => ?_⟩
  · obtain ⟨launched, p, hp, h⟩ := h
    obtain ⟨himage, hroot, hencoding, hoverlays⟩ := parts_ok_iff.mp ⟨p, hp⟩
    split at h
    · cases h
    · next hfree =>
      obtain ⟨hconn, hdir, hfile, hworker⟩ := cluster_launch_ok_iff.mp ⟨launched, h⟩
      exact ⟨himage, hroot, hencoding, hoverlays, by simpa using hfree, hconn, hdir, hfile, hworker⟩
  · obtain ⟨p, hp⟩ := parts_ok_iff.mpr ⟨h.image, h.root, h.encoding, h.overlays⟩
    obtain ⟨launched, hl⟩ : ∃ launched, cluster_launch world env args p = .ok launched :=
      cluster_launch_ok_iff.mpr ⟨h.connection, h.snapshot, h.worker_encoding, h.worker_released⟩
    refine ⟨launched, p, hp, ?_⟩
    rw [if_neg (by simp [h.released])]
    exact hl

end

/-! ## All or nothing -/

/-- What has to hold before a run command of a cluster launch. -/
structure Checked (hosts : Hosts) (env : Env) (args : List String) (before : List Act) : Prop where
  released : ∀ side, .inspect side false ∈ before
  snapshot : hosts.found .worker .dir (model_dir args) = true
  encoding : encoding_file env ≠ "" → ∀ side, hosts.found side .file (encoding_file env) = true
  overlays : ∀ src ∈ overlay_sources env, ∀ side, hosts.found side .there src = true

structure AllOrNothing (hosts : Hosts) (env : Env) (args : List String) : Prop where
  all : cluster_mode env = true → ∀ before side words after,
    (Script.script hosts env args).trace = before ++ .run side words :: after → Checked hosts env args before
  nothing : ∀ refusal, (Script.script hosts env args).result = .error refusal →
    ∀ side words, .run side words ∉ (Script.script hosts env args).trace

section
variable {hosts : Hosts} {env : Env} {args : List String}

theorem checks_before_run {before after : List Act} {side : Side} {words : List String}
    (h : (Script.script hosts env args).trace = before ++ .run side words :: after) :
    (∃ launched, (Script.checks hosts env args).result = .ok launched) ∧
      ∀ act ∈ (Script.checks hosts env args).trace, act ∈ before := by
  have hnever : Prog.Never (·.is_run = true) (Script.checks hosts env args) := Script.never_checks
  unfold Script.script at h
  cases hr : (Script.checks hosts env args).result with
  | error e =>
    rw [Prog.bind_error hr] at h
    exact absurd rfl (hnever (.run side words) (by rw [h]; simp))
  | ok launched =>
    rw [Prog.bind_ok hr] at h
    refine ⟨⟨launched, rfl⟩, fun act hact => ?_⟩
    obtain ⟨l, hl, hrest⟩ | ⟨l, hl, hrest⟩ := List.append_eq_append_iff.mp h
    · rw [hl]
      exact List.mem_append_left _ hact
    · cases l with
      | nil =>
        rw [List.append_nil] at hl
        rwa [← hl]
      | cons a l =>
        rw [List.cons_append] at hrest
        cases hrest
        exact absurd rfl (hnever (.run side words) (by rw [hl]; simp))

theorem run_of_passes (hc : cluster_mode env = true) (h : Passes hosts.world env args) :
    ∃ before side words after, (Script.script hosts env args).trace = before ++ .run side words :: after := by
  obtain ⟨launched, hl⟩ := (launch_cluster_iff hc).mpr h
  rw [← Script.result_checks] at hl
  unfold Script.script
  rw [Prog.bind_ok hl]
  cases launched with
  | plain words => exact ⟨_, .head, words, [], rfl⟩
  | cluster head worker => exact ⟨_, .worker, worker.words, [.run .head head.words], rfl⟩

theorem nothing_before_refusal {refusal : Refusal} (h : (Script.script hosts env args).result = .error refusal)
    (side : Side) (words : List String) : .run side words ∉ (Script.script hosts env args).trace := by
  intro hrun
  obtain ⟨before, after, htrace⟩ := List.append_of_mem hrun
  obtain ⟨⟨launched, hok⟩, -⟩ := checks_before_run htrace
  unfold Script.script at h
  rw [Prog.bind_ok hok] at h
  cases launched <;> cases h

/-- **All or nothing.** No refusal comes after a run command. What both hosts need is there before one, if and only if
the overlay sources are on the worker, where nothing looks for them. -/
theorem all_or_nothing_iff {dir : String} {rest : List String} (hdir : dir ≠ "") :
    AllOrNothing hosts env ("serve" :: dir :: rest) ↔
      (cluster_mode env = true → Passes hosts.world env ("serve" :: dir :: rest) →
        ∀ src ∈ overlay_sources env, hosts.found .worker .there src = true) := by
  refine ⟨fun h hc hpass src hsrc => ?_, fun h => ⟨fun hc before side words after htrace => ?_, ?_⟩⟩
  · obtain ⟨before, side, words, after, htrace⟩ := run_of_passes hc hpass
    exact (h.all hc before side words after htrace).overlays src hsrc .worker
  · obtain ⟨⟨launched, hok⟩, hbefore⟩ := checks_before_run htrace
    have hpass : Passes hosts.world env ("serve" :: dir :: rest) :=
      (launch_cluster_iff hc).mp ⟨launched, Script.result_checks ▸ hok⟩
    refine ⟨fun side => hbefore _ (Script.inspect_of_checks hc hok side), hpass.snapshot.resolve_left hdir, ?_, ?_⟩
    · intro hfile side
      cases side with
      | head => exact hpass.encoding.resolve_left hfile
      | worker => exact hpass.worker_encoding.resolve_left hfile
    · intro src hsrc side
      cases side with
      | head =>
        obtain ⟨line, hline, rfl⟩ := List.mem_map.mp hsrc
        exact (hpass.overlays line hline).2.2.2
      | worker => exact h hc hpass src hsrc
  · intro refusal hr
    exact nothing_before_refusal hr

end

def overlay_env : Env := cluster_env "vllm" ++ [("AIRO_VLLM_OVERLAY_FILES", "/patch.py:/opt/patch.py")]

theorem all_or_nothing_iff_there : AllOrNothing {} overlay_env serve :=
  (all_or_nothing_iff (by decide)).mpr fun _ _ _ _ => rfl

/-- All that is looked for is there, and the patch is not on the worker. -/
def unpatched : Hosts where
  found := fun side _ path => side = .head || path ≠ "/patch.py"

/-- Both ranks are started, the one on the worker without the patch. -/
theorem unpatched_worker_runs :
    ((Script.script unpatched overlay_env serve).trace.map fun act => (act.runtime, act.is_run)) =
      [(false, false), (true, false), (true, false), (false, false), (true, false), (true, false), (true, true), (true, true)] ∧
    ¬ AllOrNothing unpatched overlay_env serve := by
  have htrace : ((Script.script unpatched overlay_env serve).trace.map fun act => (act.runtime, act.is_run)) =
      [(false, false), (true, false), (true, false), (false, false), (true, false), (true, false), (true, true), (true, true)] := by
    decide
  refine ⟨htrace, fun h => ?_⟩
  obtain ⟨before, side, words, after, hrun⟩ : ∃ before side words after,
      (Script.script unpatched overlay_env serve).trace = before ++ .run side words :: after := ⟨_, .worker, _, _, rfl⟩
  have := (h.all (by decide) before side words after hrun).overlays "/patch.py" (by decide) .worker
  cases this

end AiroAgent.VllmSlot
