import AiroAgent.VllmSlotRun

/-!
# Whether both ranks run the same engine

The command of rank 0 is a shell expansion, that of rank 1 an array. All they
share is built once. What is built twice is the part behind the image: the
prefix, which rank 0 splits into words and expands and rank 1 does not, and the
arguments, where rank 1 flips `--node-rank`.
-/

namespace AiroAgent.VllmSlot

variable {world : World} {env : Env} {args : List String} {head worker : RankRun}

/-- The word after each `--node-rank` is 1; `prev` is the word in front. -/
def rank_flipped : String → List String → List String
  | _, [] => []
  | prev, a :: rest => (if prev = "--node-rank" then "1" else a) :: rank_flipped a rest

/-- The rank and its address aside, rank 1 is rank 0 with `--node-rank` flipped and `--headless` behind. -/
structure SameEngine (head worker : RankRun) : Prop where
  parts : worker.parts = head.parts
  cluster_labels : worker.cluster_labels = head.cluster_labels
  nccl_env : worker.nccl_env = head.nccl_env
  command : worker.command = rank_flipped "" head.command ++ ["--headless"]

/-! ## Flipping -/

theorem length_rank_flipped (prev : String) (words : List String) :
    (rank_flipped prev words).length = words.length := by
  induction words generalizing prev with
  | nil => rfl
  | cons a rest ih => simp [rank_flipped, ih]

theorem worker_args_eq (args : List String) : worker_args args = rank_flipped "" args ++ ["--headless"] := by
  have hfold : ∀ (rest : List String) (p : List String × String),
      (rest.foldl (fun p a => (p.1 ++ [if p.2 = "--node-rank" then "1" else a], a)) p).1 = p.1 ++ rank_flipped p.2 rest := by
    intro rest
    induction rest with
    | nil => simp [rank_flipped]
    | cons a rest ih =>
      intro p
      rw [List.foldl_cons, ih, rank_flipped, List.append_assoc]
      rfl
  exact congrArg (· ++ ["--headless"]) (hfold args ([], ""))

theorem rank_flipped_eq_iff {word : String} : rank_flipped word args = rank_flipped "" args ↔
    (word = "--node-rank" → ∀ a ∈ args.head?, a = "1") := by
  cases args with
  | nil => simp [rank_flipped]
  | cons a rest =>
    by_cases h : word = "--node-rank"
    · have hone : ("1" = a) ↔ (a = "1") := eq_comm
      simp [rank_flipped, h, hone]
    · simp [rank_flipped, h]

/-! ## The prefix -/

/-- The prefix is one word on rank 0 as well, and no `--node-rank` in front of another rank. -/
def OneWord (world : World) (env : Env) (args : List String) : Prop :=
  world.expand (cmd_prefix_of env) = [cmd_prefix_of env] ∧ (cmd_prefix_of env = "--node-rank" → ∀ a ∈ args.head?, a = "1")

theorem expand_empty (world : World) : world.expand "" = [] := rfl

/-- Behind a single word `w`, the flipped words of rank 0 are those of rank 1 when that word is `p`. -/
theorem command_eq_iff {words : List String} {p : String} :
    [p] ++ worker_args args = rank_flipped "" (words ++ args) ++ ["--headless"] ↔
      words = [p] ∧ (p = "--node-rank" → ∀ a ∈ args.head?, a = "1") := by
  rw [worker_args_eq, ← List.append_assoc, List.append_cancel_right_eq]
  constructor
  · intro h
    have hlen : words.length = 1 := by
      have := congrArg List.length h
      simp only [List.length_append, length_rank_flipped, List.length_singleton] at this
      omega
    obtain ⟨w, rfl⟩ := List.length_eq_one_iff.mp hlen
    simp only [List.cons_append, List.nil_append, rank_flipped, String.reduceEq, if_false, List.cons.injEq] at h
    obtain ⟨rfl, h⟩ := h
    exact ⟨rfl, rank_flipped_eq_iff.mp h.symm⟩
  · intro h
    obtain ⟨rfl, h⟩ := h
    simp [rank_flipped, rank_flipped_eq_iff.mpr h]

theorem run_command_eq_iff {p : Parts} {master_ip nccl_if : String} :
    (worker_run env args p nccl_if).command =
        rank_flipped "" (head_run world env args p master_ip nccl_if).command ++ ["--headless"] ↔
      cmd_prefix_of env = "" ∨ OneWord world env args := by
  unfold worker_run head_run OneWord
  by_cases h : cmd_prefix_of env = ""
  · simp [h, expand_empty, worker_args_eq]
  · simp only [h, if_false, false_or]
    exact command_eq_iff

/-! ## The two commands -/

theorem cluster_launch_eq {p : Parts} (h : cluster_launch world env args p = .ok (.cluster head worker)) :
    ∃ master_ip nccl_if, head = head_run world env args p master_ip nccl_if ∧ worker = worker_run env args p nccl_if := by
  unfold cluster_launch at h
  obtain ⟨worker_ssh, -, h⟩ := bind_eq_ok.mp h
  obtain ⟨master_ip, -, h⟩ := bind_eq_ok.mp h
  obtain ⟨nccl_if, -, h⟩ := bind_eq_ok.mp h
  split at h
  · cases h
  · split at h
    · cases h
    · split at h
      · cases h
      · cases h
        exact ⟨master_ip, nccl_if, rfl, rfl⟩

theorem launch_eq (h : launch world env args = .ok (.cluster head worker)) : ∃ p master_ip nccl_if,
    cluster_mode env = true ∧ parts world env args = .ok p ∧ head = head_run world env args p master_ip nccl_if ∧
      worker = worker_run env args p nccl_if := by
  unfold launch at h
  obtain ⟨p, hp, h⟩ := bind_eq_ok.mp h
  split at h
  · cases h
  · split at h
    · next hc =>
      obtain ⟨master_ip, nccl_if, hh, hw⟩ := cluster_launch_eq h
      exact ⟨p, master_ip, nccl_if, hc, hp, hh, hw⟩
    · cases h

theorem parts_fields {p : Parts} (h : parts world env args = .ok p) :
    p.name = name args ∧ p.env_args = env_args env ∧ overlay_args world env = .ok p.overlay_args := by
  unfold parts at h
  obtain ⟨image, -, h⟩ := bind_eq_ok.mp h
  obtain ⟨root, -, h⟩ := bind_eq_ok.mp h
  obtain ⟨encoding, -, h⟩ := bind_eq_ok.mp h
  obtain ⟨overlay, hoverlay, h⟩ := bind_eq_ok.mp h
  cases h
  exact ⟨rfl, rfl, hoverlay⟩

/-- The container a rank's command makes, with what stands behind its prefix for arguments. -/
def RankRun.container (run : RankRun) (args : List String) : Container where
  name := run.parts.name
  labels := run.cluster_labels ++ label "airo.cluster.rank" run.rank
  args := args

/-- The commands name and label the containers that `PeerRanks` reads back. -/
theorem launch_containers (h : launch world env args = .ok (.cluster head worker)) :
    containers env args = [head.container args, worker.container (worker_args args)] := by
  obtain ⟨p, master_ip, nccl_if, hc, hp, rfl, rfl⟩ := launch_eq h
  simp [containers, RankRun.container, hc, head_run, worker_run, (parts_fields hp).1]

/-- **Both ranks run the same engine.** When the wrapper gets to its two commands, they
are those of one engine if and only if the prefix is empty or a single word to the shell. -/
theorem same_engine_iff (h : launch world env args = .ok (.cluster head worker)) :
    SameEngine head worker ↔ cmd_prefix_of env = "" ∨ OneWord world env args := by
  obtain ⟨p, master_ip, nccl_if, -, -, rfl, rfl⟩ := launch_eq h
  constructor
  · intro hsame
    exact run_command_eq_iff.mp hsame.command
  · intro hprefix
    exact ⟨rfl, rfl, rfl, run_command_eq_iff.mpr hprefix⟩

/-! ## Two launches of one model -/

def cluster_env (words : String) : Env := [
  ("VLLM_IMAGE", "vllm:latest"),
  ("HOME", "/root"),
  ("AIRO_VLLM_CLUSTER", "1"),
  ("AIRO_VLLM_WORKER_SSH", "worker"),
  ("AIRO_VLLM_MASTER_IP", "10.0.0.1"),
  ("AIRO_VLLM_NCCL_IF", "eth0"),
  ("AIRO_VLLM_CMD_PREFIX", words)]

def serve : List String := ["serve", "/m", "--port", "8081", "--node-rank", "0"]

theorem same_engine_iff_vllm : ∃ head worker, launch {} (cluster_env "vllm") serve = .ok (.cluster head worker) ∧
    SameEngine head worker := by
  have h : ∃ head worker, launch {} (cluster_env "vllm") serve = .ok (.cluster head worker) := ⟨_, _, rfl⟩
  obtain ⟨head, worker, h⟩ := h
  exact ⟨head, worker, h, (same_engine_iff h).mpr (.inr ⟨by decide, by decide⟩)⟩

/-- `python3 -m vllm` is three words on rank 0 and one on rank 1. -/
theorem prefix_of_words_differs : ∃ head worker, launch {} (cluster_env "python3 -m vllm") serve = .ok (.cluster head worker) ∧
    head.command = ["python3", "-m", "vllm"] ++ serve ∧
    worker.command = ["python3 -m vllm", "serve", "/m", "--port", "8081", "--node-rank", "1", "--headless"] ∧
    ¬ SameEngine head worker := by
  refine ⟨_, _, rfl, by decide, by decide, fun h => ?_⟩
  have hc := h.command
  revert hc
  decide

end AiroAgent.VllmSlot
