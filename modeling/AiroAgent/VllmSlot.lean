import AiroAgent.Engine

/-!
# The `vllm-slot` wrapper

The part of `priv/engine/vllm-slot` that names the container and puts labels on
it: the slot port read back from the words of `vllm serve`, the identity of a
multi-node load from the environment, and one container a rank.
-/

namespace AiroAgent.VllmSlot

/-- `${name:-default}`. -/
def getenv (env : List (String × String)) (name default : String) : String :=
  match env.lookup name with
  | some v => if v = "" then default else v
  | none => default

theorem getenv_of_lookup {env : List (String × String)} {name default v : String}
    (h : env.lookup name = some v) (hv : v ≠ "") : getenv env name default = v := by
  simp [getenv, h, hv]

/-! ## The slot port -/

def scan_port (found : String × String) (a : String) : String × String :=
  (if found.2 = "--port" then a else found.1, a)

def slot_port (args : List String) : String := (args.foldl scan_port ("", "")).1

theorem scan_port_skips {args : List String} {found : String × String}
    (hprev : found.2 ≠ "--port") (h : "--port" ∉ args) : (args.foldl scan_port found).1 = found.1 := by
  induction args generalizing found with
  | nil => rfl
  | cons a args ih =>
    rw [List.mem_cons, not_or] at h
    have hstep : scan_port found a = (found.1, a) := by simp [scan_port, hprev]
    rw [List.foldl_cons, ih (by simpa [hstep] using Ne.symm h.1) h.2, hstep]

/-- The word after the last `--port` is the port, whatever stands before it. -/
theorem slot_port_of_last {front rest : List String} {port : String}
    (hport : port ≠ "--port") (h : "--port" ∉ rest) : slot_port (front ++ "--port" :: port :: rest) = port := by
  rw [slot_port, List.foldl_append, List.foldl_cons, List.foldl_cons]
  exact scan_port_skips hport h

def name (args : List String) : String :=
  "airo-slot-" ++ if slot_port args = "" then "vllm" else slot_port args

/-! ## Labels -/

def cluster_mode (env : List (String × String)) : Bool := getenv env "AIRO_VLLM_CLUSTER" "0" = "1"

def label (key value : String) : List String := ["--label", key ++ "=" ++ value]

def cluster_labels (env : List (String × String)) (args : List String) : List String :=
  if cluster_mode env then
    label "airo.cluster.id" (getenv env "AIRO_VLLM_CLUSTER_ID" "") ++
      label "airo.cluster.size" (getenv env "AIRO_VLLM_NNODES" "") ++
      label "airo.cluster.model" (getenv env "AIRO_VLLM_SERVED_MODEL" "") ++
      label "airo.slot.port" (slot_port args)
  else []

/-- Rank 1 runs the same words, `--node-rank` flipped and `--headless` appended. -/
def worker_args (args : List String) : List String :=
  (args.foldl (fun (words, prev) a => (words ++ [if prev = "--node-rank" then "1" else a], a)) ([], "")).1 ++
    ["--headless"]

structure Container where
  name : String
  labels : List String
  args : List String

/-- The one container of a plain launch; rank 0 here and rank 1 on the worker of a cluster launch. -/
def containers (env : List (String × String)) (args : List String) : List Container :=
  if cluster_mode env then
    [{ name := name args, labels := cluster_labels env args ++ label "airo.cluster.rank" "0", args },
      { name := name args, labels := cluster_labels env args ++ label "airo.cluster.rank" "1", args := worker_args args }]
  else [{ name := name args, labels := [], args }]

/-! ## What the runtime makes of the words -/

def label_pairs : List String → List (String × String)
  | "--label" :: word :: words => Text.cut '=' word :: label_pairs words
  | _ => []

/-- The label's value, empty where the container has none; a label given twice has its last value. -/
def Container.label (c : Container) (key : String) : String :=
  ((label_pairs c.labels).reverse.lookup key).getD ""

/-- `--filter label=key`. -/
def Container.labelled (c : Container) (key : String) : Bool := (label_pairs c.labels).any (·.1 = key)

theorem label_pairs_label {key value : String} {words : List String} (h : '=' ∉ key.toList) :
    label_pairs (label key value ++ words) = (key, value) :: label_pairs words := by
  have hcut : Text.cut '=' (key ++ "=" ++ value) = (key, value) := Text.cut_append h
  rw [label, List.cons_append, List.cons_append, List.nil_append, label_pairs, hcut]

end AiroAgent.VllmSlot
