import Mathlib.Algebra.Group.Int.Defs
import Mathlib.Data.List.AList

/-!
# Launch profiles

A profile is the map of engine knobs a load carries: atom keys, JSON values.
Fleet compares profiles with `==` and looks single keys up; the adapters turn
values into argv words with `to_string`.
-/

namespace AiroAgent

/-- A decoded JSON value. `float m e` is the double whose shortest decimal
rendering is `m * 10 ^ e`; `nil` is JSON null. -/
inductive Val where
  | nil
  | bool (b : Bool)
  | int (n : Int)
  | float (m e : Int)
  | str (s : String)
  | list (l : List Val)
  | map (l : List (String × Val))
  deriving Repr, Inhabited

def decEq (m e m' e' : Int) : Bool :=
  m * 10 ^ (e - min e e').toNat == m' * 10 ^ (e' - min e e').toNat

mutual
/-- Elixir's `==`: numbers by value, whether integer or float. -/
def Val.eq : Val → Val → Bool
  | .nil, .nil => true
  | .bool a, .bool b => a == b
  | .int a, .int b => a == b
  | .int a, .float m e => decEq a 0 m e
  | .float m e, .int b => decEq m e b 0
  | .float m e, .float m' e' => decEq m e m' e'
  | .str a, .str b => a == b
  | .list a, .list b => Val.listEq a b
  | .map a, .map b => a.length == b.length && Val.mapEq a b
  | _, _ => false
def Val.listEq : List Val → List Val → Bool
  | [], [] => true
  | a :: as, b :: bs => Val.eq a b && Val.listEq as bs
  | _, _ => false
def Val.mapEq : List (String × Val) → List (String × Val) → Bool
  | [], _ => true
  | (k, a) :: as, bs =>
    (match bs.lookup k with
    | some b => Val.eq a b
    | none => false) && Val.mapEq as bs
end

/-- Elixir's `a || b`: `nil` and `false` fall through. -/
def Val.or : Val → Val → Val
  | .nil, b => b
  | .bool false, b => b
  | a, _ => a

mutual
/-- `List.to_string/1` on chardata: code points, binaries and nested lists. -/
def Val.chardata : List Val → Option String
  | [] => some ""
  | v :: vs => do
    let s ← Val.charitem v
    let t ← Val.chardata vs
    return s ++ t
def Val.charitem : Val → Option String
  | .int n => if 0 ≤ n ∧ n.toNat.isValidChar then some (String.singleton (Char.ofNat n.toNat)) else none
  | .str s => some s
  | .list l => Val.chardata l
  | _ => none
end

/-- `to_string/1`; a map raises. `float_to_string` renders a double. -/
def Val.to_string (float_to_string : Int → Int → String) : Val → Option String
  | .nil => some ""
  | .bool b => some (if b then "true" else "false")
  | .int n => some (toString n)
  | .float m e => some (float_to_string m e)
  | .str s => some s
  | .list l => Val.chardata l
  | .map _ => none

/-- `List.wrap/1`. -/
def Val.wrap : Val → List Val
  | .nil => []
  | .list l => l
  | v => [v]

/-- Anything but null. -/
def Val.given : Val → Bool
  | .nil => false
  | _ => true

/-- Atom keys: the ones `POST /load` accepts, for every engine, and any other atom. -/
inductive Key where
  | ctx | parallel | extra_argv | disable_thinking
  | temperature | top_p | repeat_penalty | presence_penalty | frequency_penalty
  | dry_multiplier
  | ngl | n_cpu_moe | flash_attn | cache_type_k | cache_type_v | spec_type | jinja
  | chat_template | reasoning_budget | reasoning_format | ld_library_path | mmproj
  | tensor_parallel_size | gpu_memory_utilization | dtype | quantization
  | kv_cache_dtype | trust_remote_code
  | nnodes | image | container_env | entrypoint | cmd_prefix | encoding_file | overlay_files
  | other (atom : String)
  deriving DecidableEq, Repr

def Key.atom : Key → String
  | ctx => "ctx"
  | parallel => "parallel"
  | extra_argv => "extra_argv"
  | disable_thinking => "disable_thinking"
  | temperature => "temperature"
  | top_p => "top_p"
  | repeat_penalty => "repeat_penalty"
  | presence_penalty => "presence_penalty"
  | frequency_penalty => "frequency_penalty"
  | dry_multiplier => "dry_multiplier"
  | ngl => "ngl"
  | n_cpu_moe => "n_cpu_moe"
  | flash_attn => "flash_attn"
  | cache_type_k => "cache_type_k"
  | cache_type_v => "cache_type_v"
  | spec_type => "spec_type"
  | jinja => "jinja"
  | chat_template => "chat_template"
  | reasoning_budget => "reasoning_budget"
  | reasoning_format => "reasoning_format"
  | ld_library_path => "ld_library_path"
  | mmproj => "mmproj"
  | tensor_parallel_size => "tensor_parallel_size"
  | gpu_memory_utilization => "gpu_memory_utilization"
  | dtype => "dtype"
  | quantization => "quantization"
  | kv_cache_dtype => "kv_cache_dtype"
  | trust_remote_code => "trust_remote_code"
  | nnodes => "nnodes"
  | image => "image"
  | container_env => "container_env"
  | entrypoint => "entrypoint"
  | cmd_prefix => "cmd_prefix"
  | encoding_file => "encoding_file"
  | overlay_files => "overlay_files"
  | other atom => atom

abbrev Profile := AList fun _ : Key => Val

namespace Profile

def get (p : Profile) (k : Key) : Val := (p.lookup k).getD .nil

def eq (p q : Profile) : Bool :=
  p.entries.length == q.entries.length &&
    p.entries.all fun e =>
      match q.lookup e.1 with
      | some v => e.2.eq v
      | none => false

theorem get_insert {p : Profile} {k k' : Key} {v : Val} : get (p.insert k v) k' = if k' = k then v else p.get k' := by
  unfold get
  by_cases hk : k' = k
  · subst hk
    rw [AList.lookup_insert, if_pos rfl]
    rfl
  · rw [AList.lookup_insert_ne hk, if_neg hk]

/-- `Map.merge/2`: the entries of `q` win. -/
def merge (p q : Profile) : Profile := q ∪ p

def reject_nil (p : Profile) : Profile :=
  ⟨p.entries.filter fun e => match e.2 with | .nil => false | _ => true,
    p.nodupKeys.sublist List.filter_sublist⟩

variable {p q : Profile} {k : Key}

theorem lookup_merge : (p.merge q).lookup k = (q.lookup k).or (p.lookup k) := by
  unfold merge
  by_cases hk : k ∈ q
  · obtain ⟨v, hv⟩ := Option.isSome_iff_exists.mp (AList.lookup_isSome.mpr hk)
    rw [AList.lookup_union_left hk, hv, Option.some_or]
  · rw [AList.lookup_union_right hk, AList.lookup_eq_none.mpr hk, Option.none_or]

theorem mem_reject_nil {v : Val} : v ∈ p.reject_nil.lookup k ↔ v ∈ p.lookup k ∧ v.given = true := by
  rw [AList.mem_lookup_iff, AList.mem_lookup_iff]
  exact List.mem_filter

theorem lookup_reject_nil (h : p.lookup k = some .nil) : p.reject_nil.lookup k = none := by
  apply Option.eq_none_iff_forall_not_mem.mpr
  intro v hv
  obtain ⟨hv, hg⟩ := mem_reject_nil.mp hv
  rw [h] at hv
  cases hv
  cases hg

theorem lookup_reject_nil_of_ne (h : p.lookup k ≠ some .nil) : p.reject_nil.lookup k = p.lookup k := by
  cases hv : p.lookup k with
  | none =>
    apply Option.eq_none_iff_forall_not_mem.mpr
    intro v hv'
    rw [mem_reject_nil, hv] at hv'
    cases hv'.1
  | some v =>
    apply mem_reject_nil.mpr
    refine ⟨hv, ?_⟩
    cases v with
    | nil => exact absurd hv h
    | _ => rfl

end Profile

end AiroAgent
