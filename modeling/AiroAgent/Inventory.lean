import AiroAgent.GGUF
import AiroAgent.LlamaCpp
import AiroAgent.Vllm
import AiroAgent.Lib.Listing

/-!
# The catalogue

What each adapter finds under the model roots, `Engine.inventory_all/1` over
the adapters of the host, and the process that keeps the result.
-/

namespace AiroAgent

inductive InventoryError where
  | inventory_failed
  deriving DecidableEq, Repr

/-! ## GGUF files -/

namespace LlamaCpp

/-- `-0000[2-9]-of-<digits>.gguf` at the end, read from the back. -/
def shard_continuation (path : String) : Bool :=
  match Text.ends_with path ".gguf", (path.toList.reverse.drop ".gguf".length).span Char.isDigit with
  | true, (_ :: _, '-' :: 'f' :: 'o' :: '-' :: d :: '0' :: '0' :: '0' :: '0' :: '-' :: _) => '2' ≤ d && d ≤ '9'
  | _, _ => false

def is_quant_char (c : Char) : Bool := ('A' ≤ c && c ≤ 'Z') || c.isDigit || c = '_'

/-- The quant that starts here, if one does. -/
def quant_at : List Char → Option (List Char)
  | 'U' :: 'D' :: '-' :: cs =>
    match cs.takeWhile is_quant_char with
    | [] => none
    | ds => some ('U' :: 'D' :: '-' :: ds)
  | 'Q' :: d :: cs => if d.isDigit then some ('Q' :: d :: cs.takeWhile is_quant_char) else none
  | 'I' :: 'Q' :: d :: cs => if d.isDigit then some ('I' :: 'Q' :: d :: cs.takeWhile is_quant_char) else none
  | 'B' :: 'F' :: '1' :: '6' :: _ => some ['B', 'F', '1', '6']
  | 'F' :: '1' :: '6' :: _ => some ['F', '1', '6']
  | _ => none

def first_quant : List Char → Option (List Char)
  | [] => none
  | c :: cs => (quant_at (c :: cs)).or (first_quant cs)

def quant_from_filename (file : String) : Option String := (first_quant file.toList).map String.ofList

def build_id (repo : Option String) (file : String) : String :=
  match repo with
  | none => Paths.rootname file
  | some repo =>
    match quant_from_filename file with
    | none => repo
    | some q => repo ++ ":" ++ q

def caps_for (host : Host) (path : String) : List Capability :=
  if (mmproj_sibling host path).isSome then [.vision, .chat] else [.chat]

def ref_from_path (host : Host) (path : String) : ModelRef :=
  let file := Paths.basename path
  let found := HFCache.repo_and_revision path
  let info := GGUF.metadata host path
  { id := build_id found.1 file
    repo := found.1
    revision := found.2
    quant := match quant_from_filename file with
      | some q => .str q
      | none => .nil
    family := match info.family with
      | some b => .str (GGUF.text b)
      | none => .nil
    size_bytes := host.file_size path
    ctx_max := match info.ctx_max with
      | some n => .int n
      | none => .nil
    path
    capabilities := caps_for host path
    engine := .llama_cpp }

/-- The files that stand for a model: no later shard, no projector. -/
def model_files (host : Host) : List String :=
  ((host.model_roots.flatMap fun root => host.wildcard_below root ".gguf").filter (!shard_continuation ·)).filter
    (!projector ·)

def inventory (host : Host) : Except InventoryError (List ModelRef) := .ok ((model_files host).map (ref_from_path host))

end LlamaCpp

/-! ## Snapshots of safetensors -/

namespace Vllm

abbrev Config := List (String × Val)

/-- A config that cannot be read, or is no JSON object, counts as empty. -/
def read_config (host : Host) (path : String) : Config :=
  match (host.read_file path).bind host.json_decode with
  | some (.map config) => config
  | _ => []

def config_get (config : Config) (key : String) : Val := (config.lookup key).getD .nil

/-- `get_in(config, [key, field])`: whatever is neither an object nor null raises. -/
def get_in (config : Config) (key field : String) : Option Val :=
  match config_get config key with
  | .nil => some .nil
  | .map inner => some (config_get inner field)
  | _ => none

def first_arch (config : Config) : Val :=
  match config.lookup "architectures" with
  | some (.list (a :: _)) => a
  | _ => .nil

def ctx_max (config : Config) : Option Val :=
  match config_get config "max_position_embeddings" with
  | .nil | .bool false => get_in config "text_config" "max_position_embeddings"
  | n => some n

def build_id (host : Host) (repo revision : Option String) (quant : Val) : Option String :=
  match repo, quant with
  | none, _ => some (revision.getD "unknown")
  | some repo, .nil => some repo
  | some repo, q => do some (repo ++ ":" ++ (← host.to_string q))

def capabilities_from_config (config : Config) : List Capability :=
  if (config.lookup "vision_config").isSome then [.vision, .chat] else [.chat]

def safetensors (host : Host) (dir : String) : List String := host.wildcard dir ".safetensors"

def has_safetensors (host : Host) (dir : String) : Bool := safetensors host dir ≠ []

def safetensors_bytes (host : Host) (dir : String) : Nat :=
  (safetensors host dir).foldl (fun acc f => acc + (host.file_size f).getD 0) 0

/-- Nothing when an access to the config raises. -/
def ref_from_dir (host : Host) (dir : String) : Option ModelRef := do
  let config_path := path_join dir "config.json"
  let found := HFCache.repo_and_revision config_path
  let config := read_config host config_path
  let quant ← get_in config "quantization_config" "quant_method"
  let id ← build_id host found.1 found.2 quant
  let ctx_max ← ctx_max config
  return {
    id
    repo := found.1
    revision := found.2
    quant
    family := (config_get config "model_type").or (first_arch config)
    size_bytes := some (safetensors_bytes host dir)
    ctx_max
    path := dir
    capabilities := capabilities_from_config config
    engine := .vllm }

def snapshot_dirs (host : Host) : List String :=
  ((host.model_roots.flatMap host.snapshot_configs).map Paths.dirname).eraseDups

/-- The snapshots with weights in them. -/
def model_dirs (host : Host) : List String := (snapshot_dirs host).filter (has_safetensors host)

/-- The rescue makes one raise that of the whole listing. -/
def inventory (host : Host) : Except InventoryError (List ModelRef) :=
  match (model_dirs host).mapM (ref_from_dir host) with
  | some refs => .ok refs
  | none => .error .inventory_failed

end Vllm

/-! ## All adapters -/

namespace Engine

def known : EngineName → Bool
  | .llama_cpp | .vllm => true
  | .other _ => false

def inventory (host : Host) : EngineName → Except InventoryError (List ModelRef)
  | .llama_cpp => LlamaCpp.inventory host
  | .vllm => Vllm.inventory host
  | .other _ => .ok []

/-- The first adapter that fails ends the fold. -/
def collect (host : Host) : List EngineName → List ModelRef → Except InventoryError (List ModelRef)
  | [], acc => .ok acc
  | engine :: engines, acc =>
    match inventory host engine with
    | .ok refs => collect host engines (acc ++ refs)
    | .error e => .error e

def inventory_all (host : Host) : Except InventoryError (List ModelRef) := collect host (host.engines.filter known) []

end Engine

namespace Inventory

def scan (host : Host) : List ModelRef :=
  match Engine.inventory_all host with
  | .ok refs => refs
  | .error _ => []

def get (models : List ModelRef) (id : String) : Option ModelRef := models.find? (·.id == id)

end Inventory

/-! ## One listing

The adapters' listings are those of the artefacts they come upon: a GGUF file,
or the directory of a snapshot. One that cannot be read fails them all.
-/

inductive Artefact where
  | gguf (path : String)
  | snapshot (dir : String)
  deriving DecidableEq

def Artefact.ref (host : Host) : Artefact → Option ModelRef
  | gguf path => some (LlamaCpp.ref_from_path host path)
  | snapshot dir => Vllm.ref_from_dir host dir

variable {host : Host} {refs : List ModelRef}

namespace Engine

def listed_by (host : Host) : EngineName → List Artefact
  | .llama_cpp => (LlamaCpp.model_files host).map .gguf
  | .vllm => (Vllm.model_dirs host).map .snapshot
  | .other _ => []

/-- What a scan of the host comes upon, adapter by adapter. -/
def listed (host : Host) : List Artefact := (host.engines.filter known).flatMap (listed_by host)

def gathered : Option (List ModelRef) → Except InventoryError (List ModelRef)
  | some refs => .ok refs
  | none => .error .inventory_failed

theorem inventory_eq (host : Host) (engine : EngineName) :
    inventory host engine = gathered ((listed_by host engine).mapM (Artefact.ref host)) := by
  cases engine with
  | llama_cpp =>
    have hfiles : (LlamaCpp.model_files host).mapM (Artefact.ref host ∘ .gguf) =
        some ((LlamaCpp.model_files host).map (LlamaCpp.ref_from_path host)) := List.mapM_pure
    rw [listed_by, List.mapM_map, hfiles]
    rfl
  | vllm =>
    rw [listed_by, List.mapM_map, inventory, Vllm.inventory]
    have hdirs : (Vllm.model_dirs host).mapM (Artefact.ref host ∘ .snapshot) =
        (Vllm.model_dirs host).mapM (Vllm.ref_from_dir host) := rfl
    rw [hdirs]
    cases (Vllm.model_dirs host).mapM (Vllm.ref_from_dir host) <;> rfl
  | other _ => rfl

theorem collect_eq (host : Host) (engines : List EngineName) (acc : List ModelRef) :
    collect host engines acc = gathered (((engines.flatMap (listed_by host)).mapM (Artefact.ref host)).map (acc ++ ·)) := by
  induction engines generalizing acc with
  | nil => simp [collect, gathered]
  | cons engine engines ih =>
    rw [collect, inventory_eq, List.flatMap_cons, List.mapM_append]
    cases hfound : (listed_by host engine).mapM (Artefact.ref host) with
    | none => simp [gathered]
    | some found =>
      simp only [gathered, ih]
      cases (engines.flatMap (listed_by host)).mapM (Artefact.ref host) <;> simp

theorem inventory_all_eq (host : Host) : inventory_all host = gathered ((listed host).mapM (Artefact.ref host)) := by
  rw [inventory_all, collect_eq, listed]
  cases ((host.engines.filter known).flatMap (listed_by host)).mapM (Artefact.ref host) <;> simp

theorem inventory_all_eq_ok : inventory_all host = .ok refs ↔ (listed host).mapM (Artefact.ref host) = some refs := by
  rw [inventory_all_eq]
  cases (listed host).mapM (Artefact.ref host) <;> simp [gathered]

end Engine

theorem Inventory.scan_eq (host : Host) : Inventory.scan host = ((Engine.listed host).mapM (Artefact.ref host)).getD [] := by
  rw [Inventory.scan, Engine.inventory_all_eq]
  cases (Engine.listed host).mapM (Artefact.ref host) <;> rfl

end AiroAgent
