import AiroAgent.Profile
import Mathlib.Data.Finset.Insert

/-!
# Models, slots and events

The records the agent passes around, and `Host`: what it reads from its
surroundings. The application environment is fixed for a run; the digest, the
arithmetic and rendering of doubles and the files are taken as functions.
`paths` lists the files in the order a wildcard gives them.
-/

namespace AiroAgent

abbrev Port := Int
abbrev Pid := Nat
abbrev Ref := Nat
abbrev Time := Nat

inductive EngineName where
  | llama_cpp
  | vllm
  | other (atom : String)
  deriving DecidableEq, Repr

inductive Capability where
  | chat
  | vision
  deriving DecidableEq, Repr

structure ModelRef where
  id : String
  repo : Option String := none
  revision : Option String := none
  quant : Val := .nil
  family : Val := .nil
  size_bytes : Option Nat := none
  ctx_max : Val := .nil
  path : String
  capabilities : List Capability := []
  engine : EngineName

inductive Status where
  | empty
  | loading
  | up
  deriving DecidableEq, Repr

/-- Identity of one rank of a multi-node load; `tp_size` counts hosts. -/
structure ClusterInfo where
  cluster_id : String
  tp_rank : Int
  tp_size : Int
  deriving DecidableEq, Repr

structure SlotInfo where
  port : Port
  base_url : String
  status : Status
  resident_model : Option String := none
  revision : Option String := none
  ctx : Val := .nil
  parallel : Val := .nil
  ctx_total : Val := .nil
  engine_build : Val := .nil
  cluster_id : Option String := none
  tp_rank : Option Int := none
  tp_size : Option Int := none
  profile : Profile := ∅
  started_at : Option Time := none

/-- Why a process ended: the two reasons OTP itself gives, and any other term. -/
inductive Reason where
  | shutdown
  | noproc
  | other (term : String)
  deriving DecidableEq, Repr

inductive EventType where
  | loading
  | up
  | down
  | failed
  | unloaded
  deriving DecidableEq, Repr

def EventType.terminal : EventType → Bool
  | .down | .failed | .unloaded => true
  | .loading | .up => false

structure Event where
  type : EventType
  port : Port
  resident_model : Option String
  revision : Option String
  ctx : Val
  parallel : Val
  ctx_total : Val
  engine_build : Val
  cluster_id : Option String
  tp_rank : Option Int
  tp_size : Option Int
  reason : Option Reason
  time : Time

structure ClusterConfig where
  worker_ssh : String
  master_ip : String
  worker_ip : Option String
  nccl_if : String
  nccl_hca : Option String
  gid_index : Option String

structure Host where
  slots : List Port
  host_id : String
  advertise_host : String := "127.0.0.1"
  engine_bind_host : String := "127.0.0.1"
  port_free_tries : Nat := 150
  container_runtime : String := "podman"
  vllm_image : Option String := none
  vllm_extra_argv : Option (List String) := none
  vllm_cluster : Option ClusterConfig := none
  model_roots : List String := []
  sha256 : String → Vector UInt8 32
  float_to_string : Int → Int → String
  read_file : String → Option String := fun _ => none
  json_decode : String → Option Val := fun _ => none
  engines : List EngineName := [.llama_cpp]
  engine_bin : EngineName → Option String := fun _ => none
  llama_cpp_lib_path : Option String := none
  llama_cpp_reasoning_budget : Val := .int 8192
  llama_cpp_dry_multiplier : Val := .nil
  paths : List String := []
  read_bytes : String → Option (List UInt8) := fun _ => none
  file_size : String → Option Nat := fun _ => none
  mul_float : Int → Int → Int → Option Val := fun _ _ _ => none

end AiroAgent
