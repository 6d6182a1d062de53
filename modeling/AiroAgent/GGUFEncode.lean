import AiroAgent.GGUF
import AiroAgent.Lib.Reader
import Mathlib.Data.List.Permutation

/-!
# GGUF blocks

The encoding `GGUF.from_binary/1` reads: values of the twelve scalar types and
arrays of them, pairs of a key and a value, and the header in front. The reader
takes exactly the bytes of one value, so that it comes to every pair of a block.
-/

namespace AiroAgent.GGUF

open Reader (Reads Fails)

/-! ## Numbers -/

def to_le : Nat → Nat → Bytes
  | 0, _ => []
  | width + 1, n => UInt8.ofNat n :: to_le width (n / 256)

@[simp] theorem length_to_le (width n : Nat) : (to_le width n).length = width := by
  induction width generalizing n with
  | zero => rfl
  | succ width ih => simp [to_le, ih]

theorem le_to_le {width n : Nat} (h : n < 256 ^ width) : le (to_le width n) = n := by
  induction width generalizing n with
  | zero =>
    rw [pow_zero] at h
    simp [to_le, le]
    omega
  | succ width ih =>
    have hdiv : n / 256 < 256 ^ width := by
      rw [Nat.div_lt_iff_lt_mul (by decide), ← pow_succ]
      exact h
    have ih' := ih hdiv
    unfold le at ih'
    simp only [to_le, le, List.foldr_cons, UInt8.toNat_ofNat']
    rw [ih']
    omega

/-! ## Values -/

inductive Fixed where
  | uint8
  | int8
  | uint16
  | int16
  | uint32
  | int32
  | float32
  | bool
  | uint64
  | int64
  | float64
  deriving DecidableEq

namespace Fixed

def tag : Fixed → Nat
  | uint8 => GGUF.uint8
  | int8 => GGUF.int8
  | uint16 => GGUF.uint16
  | int16 => GGUF.int16
  | uint32 => GGUF.uint32
  | int32 => GGUF.int32
  | float32 => GGUF.float32
  | bool => GGUF.bool
  | uint64 => GGUF.uint64
  | int64 => GGUF.int64
  | float64 => GGUF.float64

def width : Fixed → Nat
  | uint8 | int8 | bool => 1
  | uint16 | int16 => 2
  | uint32 | int32 | float32 => 4
  | uint64 | int64 | float64 => 8

abbrev Bits (t : Fixed) : Type := BitVec (8 * t.width)

def value : (t : Fixed) → t.Bits → Value
  | uint8, bits | uint16, bits | uint32, bits | uint64, bits => .int bits.toNat
  | int8, bits | int16, bits | int32, bits | int64, bits => .int bits.toInt
  | float32, _ | float64, _ => .float
  | bool, bits => .bool (bits.toNat = 1)

/-- Neither infinite nor not a number. -/
def finite : (t : Fixed) → t.Bits → Bool
  | float32, bits => bits.toNat / 2 ^ 23 % 2 ^ 8 ≠ 2 ^ 8 - 1
  | float64, bits => bits.toNat / 2 ^ 52 % 2 ^ 11 ≠ 2 ^ 11 - 1
  | _, _ => true

end Fixed

inductive Payload where
  | fixed (t : Fixed) (bits : t.Bits)
  | string (s : Bytes)
  | array (elem_type : Nat) (elems : List Payload)

namespace Payload

def tag : Payload → Nat
  | fixed t _ => t.tag
  | string _ => GGUF.string
  | array _ _ => GGUF.array

def value : Payload → Value
  | fixed t bits => t.value bits
  | string s => .str s
  | array _ _ => .array

mutual
def encode : Payload → Bytes
  | fixed t bits => to_le t.width bits.toNat
  | string s => to_le 8 s.length ++ s
  | array elem_type elems => to_le 4 elem_type ++ (to_le 8 elems.length ++ encode_all elems)
def encode_all : List Payload → Bytes
  | [] => []
  | v :: vs => encode v ++ encode_all vs
end

mutual
/-- What GGUF allows: lengths of 64 bits, elements of the one type an array declares. -/
def WellFormed : Payload → Prop
  | fixed _ _ => True
  | string s => s.length < 2 ^ 64
  | array elem_type elems => elem_type ≤ GGUF.float64 ∧ elems.length < 2 ^ 64 ∧ AllWellFormed elem_type elems
def AllWellFormed (elem_type : Nat) : List Payload → Prop
  | [] => True
  | v :: vs => v.tag = elem_type ∧ v.WellFormed ∧ AllWellFormed elem_type vs
end

/-- The reader takes every value but a float that is not finite and an array with arrays in it. -/
def readable : Payload → Bool
  | fixed t bits => t.finite bits
  | string _ => true
  | array elem_type elems => elem_type ≠ GGUF.array || elems.isEmpty

end Payload

/-! ## Reading a value back -/

theorem take_reads {n : Nat} {c : Bytes} (h : c.length = n) : Reads (take n) c c := by
  intro rest
  subst h
  simp [take, List.splitAt_eq]

theorem number_reads {α : Type} {width n : Nat} (f : Nat → α) (h : n < 256 ^ width) :
    Reads (fun d => do
      let (v, rest) ← take width d
      return (f (le v), rest)) (to_le width n) (f n) := by
  have hreads := (take_reads (length_to_le width n)).map fun v => f (le v)
  simp only [le_to_le h] at hreads
  exact hreads

theorem string_reads {s : Bytes} (h : s.length < 2 ^ 64) : Reads read_string (to_le 8 s.length ++ s) s := by
  refine (take_reads (length_to_le 8 _)).bind (f := fun len => take (le len)) ?_
  rw [le_to_le h]
  exact take_reads rfl

namespace Fixed

theorem toNat_lt {t : Fixed} (bits : t.Bits) : bits.toNat < 256 ^ t.width := by
  have h := bits.isLt
  rwa [Nat.pow_mul] at h

theorem unsigned_reads {width n : Nat} (h : n < 256 ^ width) : Reads (unsigned width) (to_le width n) (.int n) :=
  number_reads (fun n => Value.int n) h

theorem signed_reads (width : Nat) (bits : BitVec (8 * width)) (hw : 0 < width) :
    Reads (signed width) (to_le width bits.toNat) (.int bits.toInt) := by
  have hlt : bits.toNat < 256 ^ width := by
    have h := bits.isLt
    rwa [Nat.pow_mul] at h
  have hreads := number_reads
    (fun n => Value.int (if n < 2 ^ (8 * width - 1) then n else (n : Int) - 2 ^ (8 * width))) hlt
  have hint : bits.toInt = if bits.toNat < 2 ^ (8 * width - 1) then (bits.toNat : Int)
      else (bits.toNat : Int) - 2 ^ (8 * width) := by
    have htwo : 2 ^ (8 * width) = 2 * 2 ^ (8 * width - 1) := by
      rw [← pow_succ']
      congr 1
      omega
    have hsign : 2 * bits.toNat < 2 ^ (8 * width) ↔ bits.toNat < 2 ^ (8 * width - 1) := by omega
    have hcast : ((2 ^ (8 * width) : Nat) : Int) = 2 ^ (8 * width) := by
      push_cast
      rfl
    rw [BitVec.toInt_eq_toNat_cond, hcast]
    simp only [hsign]
  rw [hint]
  exact hreads

theorem float_reads {width low ones n : Nat} (h : n < 256 ^ width) (hfin : n / 2 ^ low % 2 ^ ones ≠ 2 ^ ones - 1) :
    Reads (float width low ones) (to_le width n) .float := by
  intro rest
  simp only [float, take_reads (length_to_le width n) rest, Option.bind_eq_bind, Option.bind_some, le_to_le h, if_neg hfin,
    Option.pure_def]

theorem float_fails {width low ones n : Nat} (h : n < 256 ^ width) (hfin : n / 2 ^ low % 2 ^ ones = 2 ^ ones - 1) :
    Fails (float width low ones) (to_le width n) := by
  intro rest
  simp only [float, take_reads (length_to_le width n) rest, Option.bind_eq_bind, Option.bind_some, le_to_le h, if_pos hfin]

theorem typed_reads (t : Fixed) (bits : t.Bits) (h : t.finite bits = true) :
    Reads (read_typed · t.tag) (to_le t.width bits.toNat) (t.value bits) := by
  cases t with
  | uint8 | uint16 | uint32 | uint64 => exact unsigned_reads (toNat_lt bits)
  | int8 => exact signed_reads 1 bits (by decide)
  | int16 => exact signed_reads 2 bits (by decide)
  | int32 => exact signed_reads 4 bits (by decide)
  | int64 => exact signed_reads 8 bits (by decide)
  | float32 | float64 => exact float_reads (toNat_lt bits) (of_decide_eq_true h)
  | bool => exact number_reads (fun n => Value.bool (n = 1)) (toNat_lt bits)

theorem skip_reads (t : Fixed) (bits : t.Bits) (rest : Bytes) :
    skip_elem (to_le t.width bits.toNat ++ rest) t.tag = some rest := by
  have h : (take t.width (to_le t.width bits.toNat ++ rest)).map Prod.snd = some rest :=
    (take_reads (length_to_le t.width bits.toNat)).skip
  cases t <;> exact h

end Fixed

namespace Payload

theorem skip_elem_reads {v : Payload} {rest : Bytes} (hwf : v.WellFormed) (harray : v.tag ≠ GGUF.array) :
    skip_elem (v.encode ++ rest) v.tag = some rest := by
  cases v with
  | fixed t bits =>
    simp only [encode]
    exact t.skip_reads bits rest
  | string s =>
    simp only [encode]
    exact (string_reads (by simpa [WellFormed] using hwf)).skip
  | array elem_type elems => exact absurd rfl harray

theorem skip_array_reads {elem_type : Nat} {elems : List Payload} {rest : Bytes}
    (hwf : AllWellFormed elem_type elems) (harray : elem_type ≠ GGUF.array) :
    skip_array elem_type elems.length (encode_all elems ++ rest) = some rest := by
  induction elems with
  | nil => simp [encode_all, skip_array]
  | cons v vs ih =>
    simp only [AllWellFormed] at hwf
    obtain ⟨htag, hv, hvs⟩ := hwf
    subst htag
    simp only [encode_all, List.length_cons, skip_array, List.append_assoc, skip_elem_reads hv harray]
    exact ih hvs

theorem array_reads {elem_type : Nat} {elems : List Payload} (hwf : (array elem_type elems).WellFormed)
    (harray : elem_type ≠ GGUF.array ∨ elems = []) :
    Reads (read_typed · GGUF.array) (array elem_type elems).encode .array := by
  intro rest
  simp only [WellFormed] at hwf
  obtain ⟨htype, hlen, helems⟩ := hwf
  have hskip : skip_array elem_type elems.length (encode_all elems ++ rest) = some rest := by
    obtain harray | rfl := harray
    · exact skip_array_reads helems harray
    · simp [encode_all, skip_array]
  have hle : le (to_le 4 elem_type) = elem_type := le_to_le (by unfold float64 at htype; omega)
  simp only [encode, List.append_assoc, read_typed, take_reads (length_to_le 4 _) _, take_reads (length_to_le 8 _) _,
    Option.bind_eq_bind, Option.bind_some, hle, le_to_le (show elems.length < 256 ^ 8 from hlen), hskip, Option.pure_def]

theorem typed_reads {v : Payload} (hwf : v.WellFormed) (h : v.readable = true) :
    Reads (read_typed · v.tag) v.encode v.value := by
  cases v with
  | fixed t bits =>
    simp only [encode]
    exact t.typed_reads bits h
  | string s =>
    simp only [encode]
    exact (string_reads (by simpa [WellFormed] using hwf)).map Value.str
  | array elem_type elems => exact array_reads hwf (by simpa [readable] using h)

/-- An array of arrays is given up at its first element, a float that is not finite at once. -/
theorem typed_fails {v : Payload} (hwf : v.WellFormed) (h : v.readable = false) :
    Fails (read_typed · v.tag) v.encode := by
  cases v with
  | fixed t bits =>
    simp only [encode]
    cases t with
    | float32 | float64 => exact Fixed.float_fails (Fixed.toNat_lt bits) (by simpa [readable, Fixed.finite] using h)
    | _ => cases h
  | string s => cases h
  | array elem_type elems =>
    simp only [readable, Bool.or_eq_false_iff, decide_eq_false_iff_not, not_not] at h
    obtain ⟨rfl, hne⟩ := h
    cases elems with
    | nil => cases hne
    | cons v vs =>
      intro rest
      simp only [WellFormed, List.length_cons] at hwf
      have hle : le (to_le 4 GGUF.array) = GGUF.array := le_to_le (by decide)
      simp only [encode, List.append_assoc, read_typed, tag, take_reads (length_to_le 4 _) _, take_reads (length_to_le 8 _) _,
        Option.bind_eq_bind, Option.bind_some, hle, List.length_cons, le_to_le (show vs.length + 1 < 256 ^ 8 from hwf.2.1)]
      rfl

theorem tag_lt (v : Payload) : v.tag < 256 ^ 4 := by
  cases v with
  | fixed t bits =>
    show t.tag < 256 ^ 4
    cases t <;> decide
  | string s =>
    show GGUF.string < 256 ^ 4
    decide
  | array elem_type elems =>
    show GGUF.array < 256 ^ 4
    decide

end Payload

/-! ## Pairs -/

structure Pair where
  key : Bytes
  value : Payload

namespace Pair

def encode (p : Pair) : Bytes := to_le 8 p.key.length ++ p.key ++ (to_le 4 p.value.tag ++ p.value.encode)

def WellFormed (p : Pair) : Prop := p.key.length < 2 ^ 64 ∧ p.value.WellFormed

variable {p : Pair}

/-- The key and the type are always read, so that all hangs on the value. -/
theorem read_pair_encode (hwf : p.WellFormed) (rest : Bytes) : read_pair (p.encode ++ rest) =
    (read_typed (p.value.encode ++ rest) p.value.tag).bind fun r => some ((p.key, r.1), r.2) := by
  have hkey := string_reads hwf.1 (to_le 4 p.value.tag ++ p.value.encode ++ rest)
  have htag := take_reads (length_to_le 4 p.value.tag) (p.value.encode ++ rest)
  simp only [List.append_assoc] at hkey htag
  simp only [encode, List.append_assoc, read_pair, hkey, read_value, htag, Option.bind_eq_bind, Option.bind_some,
    le_to_le p.value.tag_lt, Option.pure_def]

theorem pair_reads (hwf : p.WellFormed) (h : p.value.readable = true) :
    Reads read_pair p.encode (p.key, p.value.value) := by
  intro rest
  have hvalue : read_typed (p.value.encode ++ rest) p.value.tag = some (p.value.value, rest) := Payload.typed_reads hwf.2 h rest
  rw [read_pair_encode hwf, hvalue, Option.bind_some]

theorem pair_fails (hwf : p.WellFormed) (h : p.value.readable = false) : Fails read_pair p.encode := by
  intro rest
  have hvalue : read_typed (p.value.encode ++ rest) p.value.tag = none := Payload.typed_fails hwf.2 h rest
  rw [read_pair_encode hwf, hvalue, Option.bind_none]

end Pair

def header (version tensor_count : Bytes) (kv_count : Nat) : Bytes :=
  ascii "GGUF" ++ (version ++ (tensor_count ++ to_le 8 kv_count))

theorem header_reads {version tensor_count : Bytes} {kv_count : Nat} (hv : version.length = 4)
    (ht : tensor_count.length = 8) (hc : kv_count < 2 ^ 64) :
    Reads parse (header version tensor_count kv_count) kv_count := by
  intro rest
  simp only [header, List.append_assoc, parse, take_reads (show (ascii "GGUF").length = 4 by decide) _, take_reads hv _,
    take_reads ht _, take_reads (length_to_le 8 kv_count) _, Option.bind_eq_bind, Option.bind_some, ne_eq,
    not_true_eq_false, if_false, le_to_le (show kv_count < 256 ^ 8 from hc), Option.pure_def]

/-! ## What is read of a block -/

/-- The fields after the pairs, one at a time until both are there. -/
def captures (acc : Metadata) : List Pair → Metadata
  | [] => acc
  | p :: ps => if acc.Found then acc else captures (capture acc p.key p.value.value) ps

theorem captures_found {acc : Metadata} (h : acc.Found) (ps : List Pair) : captures acc ps = acc := by
  cases ps with
  | nil => rfl
  | cons p ps => exact if_pos h

theorem read_kvs_pairs {ps : List Pair} {k : Nat} {rest : Bytes} {acc : Metadata}
    (hwf : ∀ p ∈ ps, p.WellFormed ∧ p.value.readable = true) :
    read_kvs (ps.length + k) (ps.flatMap Pair.encode ++ rest) acc = read_kvs k rest (captures acc ps) := by
  induction ps generalizing acc with
  | nil => simp [captures]
  | cons p ps ih =>
    rw [List.forall_mem_cons] at hwf
    obtain ⟨⟨hp, hread⟩, hps⟩ := hwf
    by_cases hacc : acc.Found
    · rw [captures_found hacc, read_kvs_found hacc, read_kvs_found hacc]
    · have hpair := Pair.pair_reads hp hread (ps.flatMap Pair.encode ++ rest)
      rw [List.flatMap_cons, List.append_assoc, List.length_cons, Nat.add_right_comm, read_kvs_some hacc hpair, ih hps,
        captures, if_neg hacc]

/-! ## A block with one of each -/

/-- A key one of the fields is taken from. -/
def wanted (p : Pair) : Bool := p.key = ascii "general.architecture" || (ascii ".context_length").isSuffixOf p.key

theorem capture_unwanted {p : Pair} {acc : Metadata} (h : wanted p = false) : capture acc p.key p.value.value = acc := by
  simp only [wanted, Bool.or_eq_false_iff, decide_eq_false_iff_not] at h
  obtain ⟨harch, hctx⟩ := h
  unfold capture
  split
  · exact if_neg harch
  · exact if_neg fun hw => by simp [hctx] at hw
  · rfl

theorem captures_wanted (acc : Metadata) (ps : List Pair) : captures acc ps = captures acc (ps.filter wanted) := by
  induction ps generalizing acc with
  | nil => rfl
  | cons p ps ih =>
    by_cases hacc : acc.Found
    · rw [captures_found hacc, captures_found hacc]
    · by_cases hp : wanted p = true
      · rw [List.filter_cons_of_pos hp, captures, captures, if_neg hacc, if_neg hacc, ih]
      · rw [List.filter_cons_of_neg hp, captures, if_neg hacc, capture_unwanted (by simpa using hp), ih]

theorem capture_architecture (acc : Metadata) (a : Bytes) :
    capture acc (ascii "general.architecture") (.str a) = { acc with family := some a } := by
  simp [capture]

theorem capture_context_length {key : Bytes} {c : Nat} (acc : Metadata) (hkey : ascii ".context_length" <:+ key)
    (hc : 0 < c) : capture acc key (.int c) = { acc with ctx_max := some c } :=
  if_pos ⟨by omega, by simpa using hkey⟩

section Block

variable {version tensor_count a : Bytes} {pairs : List Pair} {p : Pair} {c : Nat}

theorem captures_pair (hkey : ascii ".context_length" <:+ p.key) (hvalue : p.value.value = .int c) (hc : 0 < c)
    (hwanted : (pairs.filter wanted).Perm [⟨ascii "general.architecture", .string a⟩, p]) :
    captures {} pairs = ⟨some a, some c⟩ := by
  have hctx : ∀ acc, capture acc p.key p.value.value = { acc with ctx_max := some c } := by
    intro acc
    rw [hvalue]
    exact capture_context_length acc hkey hc
  have harch : ∀ acc, capture acc (ascii "general.architecture") (Payload.string a).value = { acc with family := some a } :=
    fun acc => capture_architecture acc a
  rw [captures_wanted]
  obtain h | h := List.perm_pair.mp hwanted
  · simp [h, captures, harch, hctx, Metadata.Found]
  · simp [h, captures, harch, hctx, Metadata.Found]

/-- Both fields are read, wherever in the block their pairs are. -/
theorem from_binary_block {kv_count : Nat} {trailing : Bytes} (hversion : version.length = 4)
    (htensor : tensor_count.length = 8) (hcount : pairs.length ≤ kv_count ∧ kv_count < 2 ^ 64)
    (hwf : ∀ p ∈ pairs, p.WellFormed ∧ p.value.readable = true)
    (hwanted : (pairs.filter wanted).Perm [⟨ascii "general.architecture", .string a⟩, p])
    (hkey : ascii ".context_length" <:+ p.key) (hvalue : p.value.value = .int c) (hc : 0 < c) :
    from_binary (header version tensor_count kv_count ++ (pairs.flatMap Pair.encode ++ trailing)) = ⟨some a, some c⟩ := by
  have hcaptures := captures_pair hkey hvalue hc hwanted
  obtain ⟨extra, rfl⟩ := Nat.exists_eq_add_of_le hcount.1
  rw [from_binary, header_reads hversion htensor hcount.2 _]
  show read_kvs _ _ _ = _
  rw [read_kvs_pairs hwf, hcaptures]
  exact read_kvs_found ⟨rfl, rfl⟩

end Block

/-- The tokens of a vocabulary between the two, a pair too many in the header, and tensors behind. -/
theorem from_binary_vocabulary :
    from_binary (header [3, 0, 0, 0] [0, 0, 0, 0, 0, 0, 0, 0] 4 ++
      ([⟨ascii "llama.context_length", .fixed .uint32 4096#32⟩,
        ⟨ascii "tokenizer.ggml.tokens", .array string [.string (ascii "a"), .string []]⟩,
        ⟨ascii "general.architecture", .string (ascii "llama")⟩].flatMap Pair.encode ++ [255])) =
      ⟨some (ascii "llama"), some 4096⟩ :=
  from_binary_block (p := ⟨ascii "llama.context_length", .fixed .uint32 4096#32⟩) rfl rfl (by decide)
    (by
      intro p hp
      simp only [List.mem_cons, List.not_mem_nil, or_false] at hp
      obtain rfl | rfl | rfl := hp
      · exact ⟨⟨by decide, trivial⟩, rfl⟩
      · refine ⟨⟨by decide, ?_⟩, rfl⟩
        simp [Payload.WellFormed, Payload.AllWellFormed, Payload.tag, ascii, string, float64]
      · refine ⟨⟨by decide, ?_⟩, rfl⟩
        simp [Payload.WellFormed, ascii])
    (List.Perm.swap _ _ _) (by decide) rfl (by decide)

end AiroAgent.GGUF
