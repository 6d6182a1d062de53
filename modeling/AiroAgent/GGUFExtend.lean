import AiroAgent.GGUF
import AiroAgent.Lib.Reader

/-!
# Reading a longer prefix

No reader of the GGUF header looks past what it takes, so what was read of a
prefix of a file is read of any longer one as well. Once both fields are found
the reading ends, and where the prefix was cut makes no difference.
-/

namespace AiroAgent.GGUF

open Reader (Stable)

variable {data ext rest : Bytes} {n : Nat} {acc : Metadata}

/-! ## Each reader -/

theorem take_stable (n : Nat) : Stable (take n) := by
  intro d a rest e h
  simp only [take, Option.ite_none_right_eq_some, Option.some.injEq] at h ⊢
  obtain ⟨hn, h⟩ := h
  rw [List.splitAt_eq, Prod.mk.injEq] at h
  obtain ⟨rfl, rfl⟩ := h
  refine ⟨by simp; omega, ?_⟩
  rw [List.splitAt_eq, List.take_append_of_le_length hn, List.drop_append_of_le_length hn]

theorem read_string_stable : Stable read_string := (take_stable 8).bind fun len => take_stable (le len)

theorem unsigned_stable (width : Nat) : Stable (unsigned width) := (take_stable width).map fun v => Value.int (le v)

theorem signed_stable (width : Nat) : Stable (signed width) := (take_stable width).map fun v : Bytes =>
  Value.int (if le v < 2 ^ (8 * width - 1) then le v else (le v : Int) - 2 ^ (8 * width))

theorem float_stable (width low ones : Nat) : Stable (float width low ones) :=
  (take_stable width).bind (f := fun v rest =>
      if le v / 2 ^ low % 2 ^ ones = 2 ^ ones - 1 then none else some (Value.float, rest)) fun _ =>
    Reader.stable_ite Reader.stable_none (Reader.stable_some _)

theorem skip_elem_stable {elem_type : Nat} (h : skip_elem data elem_type = some rest) :
    skip_elem (data ++ ext) elem_type = some (rest ++ ext) := by
  unfold skip_elem at h ⊢
  split at h
  · exact read_string_stable.skip h
  all_goals first
    | exact (take_stable _).skip h
    | cases h

theorem skip_array_stable {elem_type count : Nat} (h : skip_array elem_type count data = some rest) :
    skip_array elem_type count (data ++ ext) = some (rest ++ ext) := by
  induction count generalizing data with
  | zero =>
    cases h
    rfl
  | succ count ih =>
    simp only [skip_array, Option.bind_eq_bind, Option.bind_eq_some_iff] at h ⊢
    obtain ⟨next, hnext, h⟩ := h
    exact ⟨next ++ ext, skip_elem_stable hnext, ih h⟩

theorem read_array_stable : Stable (read_typed · array) := by
  intro d a rest e h
  unfold read_typed at h ⊢
  simp only [Option.bind_eq_bind, Option.bind_eq_some_iff, Option.pure_def, Option.some.injEq] at h ⊢
  obtain ⟨⟨elem_type, r₁⟩, htype, ⟨count, r₂⟩, hcount, next, hnext, h⟩ := h
  cases h
  exact ⟨_, take_stable 4 e htype, _, take_stable 8 e hcount, _, skip_array_stable hnext, rfl⟩

theorem read_typed_stable (type : Nat) : Stable (read_typed · type) := by
  by_cases harray : type = array
  · subst harray
    exact read_array_stable
  unfold read_typed
  split
  · exact read_string_stable.map Value.str
  · exact unsigned_stable 1
  · exact signed_stable 1
  · exact (take_stable 1).map fun v => Value.bool (le v = 1)
  · exact unsigned_stable 2
  · exact signed_stable 2
  · exact unsigned_stable 4
  · exact signed_stable 4
  · exact float_stable 4 23 8
  · exact unsigned_stable 8
  · exact signed_stable 8
  · exact float_stable 8 52 11
  · exact absurd rfl harray
  · exact Reader.stable_none

theorem read_value_stable : Stable read_value := (take_stable 4).bind fun type => read_typed_stable (le type)

theorem read_pair_stable : Stable read_pair := by
  intro d p rest e h
  simp only [read_pair, Option.bind_eq_bind, Option.bind_eq_some_iff] at h ⊢
  obtain ⟨⟨key, r₁⟩, hkey, ⟨value, r₂⟩, hvalue, h⟩ := h
  cases h
  exact ⟨_, read_string_stable e hkey, _, read_value_stable e hvalue, rfl⟩

theorem parse_stable : Stable parse := by
  intro d kv_count rest e h
  simp only [parse, Option.bind_eq_bind, Option.bind_eq_some_iff] at h ⊢
  obtain ⟨⟨magic, r₁⟩, hmagic, h⟩ := h
  refine ⟨_, take_stable 4 e hmagic, ?_⟩
  by_cases hgguf : magic ≠ ascii "GGUF"
  · rw [if_pos hgguf] at h
    cases h
  · rw [if_neg hgguf] at h ⊢
    simp only [Option.bind_eq_some_iff] at h ⊢
    obtain ⟨⟨_, r₂⟩, hversion, ⟨_, r₃⟩, htensor, ⟨count, r₄⟩, hcount, h⟩ := h
    cases h
    exact ⟨_, take_stable 4 e hversion, _, take_stable 8 e htensor, _, take_stable 8 e hcount, rfl⟩

/-! ## Both fields -/

theorem read_kvs_append (h : (read_kvs n data acc).Found) : read_kvs n (data ++ ext) acc = read_kvs n data acc := by
  induction n generalizing data acc with
  | zero => rfl
  | succ n ih =>
    by_cases hacc : acc.Found
    · rw [read_kvs_found hacc, read_kvs_found hacc]
    · cases hr : read_pair data with
      | none =>
        rw [read_kvs_none hacc hr] at h
        exact absurd h hacc
      | some x =>
        rw [read_kvs_some hacc hr] at h ⊢
        rw [read_kvs_some hacc (read_pair_stable ext hr)]
        exact ih h

theorem from_binary_append (h : (from_binary data).Found) : from_binary (data ++ ext) = from_binary data := by
  unfold from_binary at h ⊢
  cases hp : parse data with
  | none =>
    rw [hp] at h
    cases h.1
  | some x =>
    rw [hp] at h
    rw [parse_stable ext hp]
    exact read_kvs_append h

theorem from_binary_take (h : (from_binary (data.take n)).Found) : from_binary (data.take n) = from_binary data := by
  have happend := @from_binary_append _ (data.drop n) h
  rw [List.take_append_drop] at happend
  exact happend.symm

/-- Neither what follows nor the read limit changes two fields that were found. -/
theorem bounded_read :
    (∀ data ext : Bytes, (from_binary data).Found → from_binary (data ++ ext) = from_binary data) ∧
      ∀ (host : Host) (path : String) (file : Bytes) (n n' : Nat), host.read_bytes path = some file →
        (metadata_upto host path n).Found → (metadata_upto host path n').Found →
        metadata_upto host path n = from_binary file ∧ metadata_upto host path n = metadata_upto host path n' := by
  refine ⟨fun data ext h => from_binary_append h, ?_⟩
  intro host path file n n' hfile hn hn'
  have hupto : ∀ n, metadata_upto host path n = from_binary (file.take n) := by
    intro n
    simp [metadata_upto, hfile]
  rw [hupto] at hn hn'
  rw [hupto, hupto, from_binary_take hn, from_binary_take hn']
  exact ⟨rfl, rfl⟩

/-- Two pairs of 41 and of 32 bytes behind a header of 24. -/
def short_block : Bytes :=
  ascii "GGUF" ++ [3, 0, 0, 0] ++ [0, 0, 0, 0, 0, 0, 0, 0] ++ [2, 0, 0, 0, 0, 0, 0, 0] ++
    ([20, 0, 0, 0, 0, 0, 0, 0] ++ ascii "general.architecture" ++ [8, 0, 0, 0] ++ [1, 0, 0, 0, 0, 0, 0, 0] ++ ascii "m") ++
    ([16, 0, 0, 0, 0, 0, 0, 0] ++ ascii "m.context_length" ++ [4, 0, 0, 0] ++ [0, 16, 0, 0])

def short_host : Host where
  slots := []
  host_id := "a"
  sha256 := fun _ => Vector.replicate 32 0
  float_to_string := fun _ _ => ""
  read_bytes := fun _ => some (short_block ++ [0, 0])

theorem bounded_read_short :
    from_binary (short_block ++ [255]) = from_binary short_block ∧
      metadata_upto short_host "m.gguf" 97 = from_binary (short_block ++ [0, 0]) ∧
      metadata_upto short_host "m.gguf" 97 = metadata_upto short_host "m.gguf" 98 :=
  ⟨bounded_read.1 short_block [255] (by decide),
    bounded_read.2 short_host "m.gguf" (short_block ++ [0, 0]) 97 98 rfl (by decide) (by decide)⟩

end AiroAgent.GGUF
