import AiroAgent.Types
import Mathlib.Algebra.Group.Int.Defs
import Mathlib.Algebra.Group.Nat.Defs

/-!
# The metadata header of a GGUF file

`GGUF.from_binary/1`: key/value pairs are read in order until both fields are
found, and whatever cannot be read ends the reading with what was found so far.
Numbers are little-endian.
-/

namespace AiroAgent.GGUF

abbrev Bytes := List UInt8

def ascii (s : String) : Bytes := s.toList.map fun c => UInt8.ofNat c.toNat

def le (bs : Bytes) : Nat := bs.foldr (fun b n => b.toNat + 256 * n) 0

def take (n : Nat) (data : Bytes) : Option (Bytes × Bytes) :=
  if n ≤ data.length then some (data.splitAt n) else none

/-! ## Values -/

@[match_pattern] abbrev uint8 : Nat := 0
@[match_pattern] abbrev int8 : Nat := 1
@[match_pattern] abbrev uint16 : Nat := 2
@[match_pattern] abbrev int16 : Nat := 3
@[match_pattern] abbrev uint32 : Nat := 4
@[match_pattern] abbrev int32 : Nat := 5
@[match_pattern] abbrev float32 : Nat := 6
@[match_pattern] abbrev bool : Nat := 7
@[match_pattern] abbrev string : Nat := 8
@[match_pattern] abbrev array : Nat := 9
@[match_pattern] abbrev uint64 : Nat := 10
@[match_pattern] abbrev int64 : Nat := 11
@[match_pattern] abbrev float64 : Nat := 12

/-- What a pair holds; the elements of an array are skipped, and no float is looked at. -/
inductive Value where
  | int (n : Int)
  | bool (b : Bool)
  | str (s : Bytes)
  | float
  | array
  deriving DecidableEq

def read_string (data : Bytes) : Option (Bytes × Bytes) := do
  let (len, rest) ← take 8 data
  take (le len) rest

def unsigned (width : Nat) (data : Bytes) : Option (Value × Bytes) := do
  let (v, rest) ← take width data
  return (.int (le v), rest)

def signed (width : Nat) (data : Bytes) : Option (Value × Bytes) := do
  let (v, rest) ← take width data
  return (.int (if le v < 2 ^ (8 * width - 1) then le v else (le v : Int) - 2 ^ (8 * width)), rest)

/-- A float matches unless it is infinite or not a number: all `ones` exponent bits above bit `low` are set. -/
def float (width low ones : Nat) (data : Bytes) : Option (Value × Bytes) := do
  let (v, rest) ← take width data
  if le v / 2 ^ low % 2 ^ ones = 2 ^ ones - 1 then none else return (.float, rest)

def skip_elem (data : Bytes) : Nat → Option Bytes
  | string => (read_string data).map Prod.snd
  | uint32 | int32 | float32 => (take 4 data).map Prod.snd
  | uint64 | int64 | float64 => (take 8 data).map Prod.snd
  | uint16 | int16 => (take 2 data).map Prod.snd
  | uint8 | int8 | bool => (take 1 data).map Prod.snd
  | _ => none

def skip_array (elem_type : Nat) : Nat → Bytes → Option Bytes
  | 0, rest => some rest
  | count + 1, data => do skip_array elem_type count (← skip_elem data elem_type)

def read_typed (data : Bytes) : Nat → Option (Value × Bytes)
  | string => do
    let (s, rest) ← read_string data
    return (.str s, rest)
  | uint8 => unsigned 1 data
  | int8 => signed 1 data
  | bool => do
    let (v, rest) ← take 1 data
    return (.bool (le v = 1), rest)
  | uint16 => unsigned 2 data
  | int16 => signed 2 data
  | uint32 => unsigned 4 data
  | int32 => signed 4 data
  | float32 => float 4 23 8 data
  | uint64 => unsigned 8 data
  | int64 => signed 8 data
  | float64 => float 8 52 11 data
  | array => do
    let (elem_type, rest) ← take 4 data
    let (count, rest) ← take 8 rest
    return (.array, ← skip_array (le elem_type) (le count) rest)
  | _ => none

def read_value (data : Bytes) : Option (Value × Bytes) := do
  let (type, rest) ← take 4 data
  read_typed rest (le type)

def read_kv (data : Bytes) : Option (Bytes × Value × Bytes) := do
  let (key, rest) ← read_string data
  let (value, rest) ← read_value rest
  return (key, value, rest)

/-! ## The two fields -/

structure Metadata where
  family : Option Bytes := none
  ctx_max : Option Nat := none
  deriving DecidableEq

def capture (acc : Metadata) (key : Bytes) : Value → Metadata
  | .str value => if key = ascii "general.architecture" then { acc with family := some value } else acc
  | .int value =>
    if 0 < value ∧ (ascii ".context_length").isSuffixOf key then { acc with ctx_max := some value.toNat } else acc
  | _ => acc

def read_kvs : Nat → Bytes → Metadata → Metadata
  | 0, _, acc => acc
  | n + 1, data, acc =>
    if acc.family.isSome ∧ acc.ctx_max.isSome then acc
    else match read_kv data with
      | some (key, value, rest) => read_kvs n rest (capture acc key value)
      | none => acc

def parse (data : Bytes) : Option (Nat × Bytes) := do
  let (magic, rest) ← take 4 data
  if magic ≠ ascii "GGUF" then none
  else
    let (_version, rest) ← take 4 rest
    let (_tensor_count, rest) ← take 8 rest
    let (kv_count, rest) ← take 8 rest
    return (le kv_count, rest)

def from_binary (data : Bytes) : Metadata :=
  match parse data with
  | some (kv_count, rest) => read_kvs kv_count rest {}
  | none => {}

def default_read : Nat := 2000000

/-- `metadata/2` with the read limit given. A file that cannot be opened has neither field. -/
def metadata_upto (host : Host) (path : String) (read_bytes : Nat) : Metadata :=
  match host.read_bytes path with
  | some data => from_binary (data.take read_bytes)
  | none => {}

def metadata (host : Host) (path : String) : Metadata := metadata_upto host path default_read

/-- A binary as text; one that is not UTF-8 keeps a character a byte. -/
def text (b : Bytes) : String :=
  match String.fromUTF8? ⟨b.toArray⟩ with
  | some s => s
  | none => String.ofList (b.map fun c => Char.ofNat c.toNat)

/-! ## One pair at a time -/

variable {data rest : Bytes} {n : Nat} {acc : Metadata}

/-- `read_kv` with the key and the value side by side. -/
def read_pair (data : Bytes) : Option ((Bytes × Value) × Bytes) := do
  let (key, rest) ← read_string data
  let (value, rest) ← read_value rest
  return ((key, value), rest)

theorem read_kv_eq (data : Bytes) : read_kv data = (read_pair data).map fun x => (x.1.1, x.1.2, x.2) := by
  unfold read_kv read_pair
  cases read_string data with
  | none => rfl
  | some x =>
    simp only [Option.bind_eq_bind, Option.bind_some]
    cases read_value x.2 <;> rfl

/-- Both fields are there. -/
def Metadata.Found (m : Metadata) : Prop := m.family.isSome = true ∧ m.ctx_max.isSome = true

instance (m : Metadata) : Decidable m.Found := inferInstanceAs (Decidable (_ ∧ _))

theorem read_kvs_found (h : acc.Found) : read_kvs n data acc = acc := by
  cases n with
  | zero => rfl
  | succ n => exact if_pos h

theorem read_kvs_some {key : Bytes} {value : Value} (h : ¬ acc.Found) (hr : read_pair data = some ((key, value), rest)) :
    read_kvs (n + 1) data acc = read_kvs n rest (capture acc key value) := by
  have hkv : read_kv data = some (key, value, rest) := by
    rw [read_kv_eq, hr]
    rfl
  rw [read_kvs, hkv]
  exact if_neg h

theorem read_kvs_none (h : ¬ acc.Found) (hr : read_pair data = none) : read_kvs (n + 1) data acc = acc := by
  have hkv : read_kv data = none := by
    rw [read_kv_eq, hr]
    rfl
  rw [read_kvs, hkv]
  exact if_neg h

end AiroAgent.GGUF
