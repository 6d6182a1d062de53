import AiroAgent.Inventory
import Mathlib.Algebra.BigOperators.Group.List.Basic
import Mathlib.Algebra.Group.Nat.Defs

/-!
# Split models

The files of a split GGUF, `<stem>-<k>-of-<n>.gguf` with the numbers padded to
five digits: which of them the listing keeps, and whose sizes it counts.
-/

namespace AiroAgent

variable {host : Host} {stem dir base path root : String} {k k' n : Nat}

/-- File `k` of the `n` a model is split into. -/
def shard (stem : String) (k n : Nat) : String := stem ++ "-" ++ Text.pad 5 k ++ "-of-" ++ Text.pad 5 n ++ ".gguf"

def shards (stem : String) (n : Nat) : List String := (List.range n).map fun i => shard stem (i + 1) n

theorem shard_inj (h : shard stem k n = shard stem k' n) : k = k' := by
  have hlist := congrArg String.toList h
  simp only [shard, String.toList_append, List.append_assoc, List.append_cancel_left_eq] at hlist
  rw [← List.append_assoc, ← List.append_assoc, ← List.append_assoc, ← List.append_assoc] at hlist
  simp only [List.append_cancel_right_eq] at hlist
  exact Text.pad_inj (String.toList_inj.mp hlist)

theorem mem_shards : path ∈ shards stem n ↔ ∃ k, 1 ≤ k ∧ k ≤ n ∧ path = shard stem k n := by
  simp only [shards, List.mem_map, List.mem_range]
  constructor
  · intro h
    obtain ⟨i, hi, rfl⟩ := h
    exact ⟨i + 1, by omega, by omega, rfl⟩
  · intro h
    obtain ⟨k, hk, hkn, rfl⟩ := h
    exact ⟨k - 1, by omega, by rw [Nat.sub_add_cancel hk]⟩

theorem shards_nodup : (shards stem n).Nodup := by
  rw [shards, List.nodup_map_iff_inj_on List.nodup_range]
  intro i _ j _ h
  have := shard_inj h
  omega

namespace LlamaCpp

/-! ## The filter -/

theorem ends_with_shard : Text.ends_with (shard stem k n) ".gguf" = true := by
  have hsuffix : ".gguf".toList <:+ (shard stem k n).toList := by
    rw [shard, String.toList_append]
    exact List.suffix_append _ _
  simpa [Text.ends_with] using hsuffix

/-- Behind the extension, read from the back. -/
theorem reverse_shard : (shard stem k n).toList.reverse.drop ".gguf".length =
    (Text.pad 5 n).toList.reverse ++ '-' :: ('f' :: 'o' :: '-' :: ((Text.pad 5 k).toList.reverse ++ '-' :: stem.toList.reverse)) := by
  have hlength : ".gguf".length = 5 := rfl
  simp [shard, hlength]

theorem span_digits {ds back : List Char} (h : ∀ c ∈ ds, c.isDigit = true) :
    (ds ++ '-' :: back).span Char.isDigit = (ds, '-' :: back) := by
  rw [List.span_eq_takeWhile_dropWhile, List.takeWhile_append_of_pos h, List.dropWhile_append_of_pos h]
  simp

theorem digits_of_pad : ∀ c ∈ (Text.pad 5 n).toList.reverse, c.isDigit = true :=
  fun _ hc => Text.digit_of_mem_pad (List.mem_reverse.mp hc)

theorem pad_ne_nil : (Text.pad 5 n).toList.reverse ≠ [] := by
  intro h
  have hlength := congrArg List.length h
  simp [Text.pad] at hlength

/-- A number that reads as five digits, four of them zeros in front, has one digit. -/
theorem lt_ten_of_zeros {d : Char} {back back' : List Char}
    (h : (Text.pad 5 k).toList.reverse ++ '-' :: back = d :: '0' :: '0' :: '0' :: '0' :: '-' :: back') : k < 10 := by
  have hspan : _ = ((Text.pad 5 k).toList.reverse, '-' :: back) := span_digits digits_of_pad
  rw [h] at hspan
  by_cases hd : d.isDigit = true
  · have hzeros : ∀ c ∈ [d, '0', '0', '0', '0'], c.isDigit = true := by simp [hd]
    have hspan' : _ = ([d, '0', '0', '0', '0'], '-' :: back') := span_digits hzeros
    have hpad : (Text.pad 5 k).toList = ['0', '0', '0', '0', d] :=
      List.reverse_eq_iff.mp (Prod.mk.inj (hspan.symm.trans hspan')).1
    have hvalue : d.toNat - '0'.toNat = k := by
      have hpadded := Text.ofDigitChars_pad 5 k
      rw [hpad] at hpadded
      simpa [Nat.ofDigitChars_cons] using hpadded
    have hrange : d.toNat ≤ 57 := by
      simp only [Char.isDigit, Bool.and_eq_true, decide_eq_true_eq, ge_iff_le, UInt32.le_iff_toNat_le] at hd
      exact hd.2
    have hzero : '0'.toNat = 48 := rfl
    omega
  · rw [List.span_eq_takeWhile_dropWhile, List.takeWhile_cons_of_neg hd] at hspan
    exact absurd (Prod.mk.inj hspan).1.symm pad_ne_nil

theorem shard_continuation_shard : shard_continuation (shard stem k n) = true ↔ 2 ≤ k ∧ k ≤ 9 := by
  unfold shard_continuation
  rw [ends_with_shard, reverse_shard, span_digits digits_of_pad]
  by_cases hk : k < 10
  · have hone : (Text.pad 5 k).toList.reverse = [k.digitChar, '0', '0', '0', '0'] := by
      rw [Text.pad_digit hk]
      rfl
    rw [hone]
    cases hn : (Text.pad 5 n).toList.reverse with
    | nil => exact absurd hn pad_ne_nil
    | cons c cs =>
      have hrange : ∀ k < 10, (decide ('2' ≤ k.digitChar) && decide (k.digitChar ≤ '9')) = true ↔ 2 ≤ k ∧ k ≤ 9 := by
        decide
      exact hrange k hk
  · have hno : ¬ (2 ≤ k ∧ k ≤ 9) := by omega
    simp only [hno, iff_false]
    split
    · next heq =>
      simp only [Prod.mk.injEq, List.cons.injEq, true_and] at heq
      exact absurd (lt_ten_of_zeros heq.2) hk
    · simp

/-- No piece of a split, whatever its numbers. -/
def Unsharded (path : String) : Prop :=
  ∀ stem k n : List Char, (∀ c ∈ k, c.isDigit = true) → k ≠ [] → (∀ c ∈ n, c.isDigit = true) → n ≠ [] →
    path.toList ≠ stem ++ "-".toList ++ k ++ "-of-".toList ++ n ++ ".gguf".toList

theorem Unsharded.continuation (h : Unsharded path) : shard_continuation path = false := by
  apply Bool.eq_false_iff.mpr
  intro hc
  unfold shard_continuation at hc
  split at hc
  · next c cs d rest hends hspan =>
    rw [Text.ends_with, List.isSuffixOf_iff_suffix] at hends
    obtain ⟨front, hfront⟩ := hends
    rw [← hfront, List.reverse_append] at hspan
    have hdrop : (".gguf".toList.reverse ++ front.reverse).drop ".gguf".length = front.reverse := rfl
    rw [hdrop, List.span_eq_takeWhile_dropWhile, Prod.mk.injEq] at hspan
    have hread : front.reverse = (c :: cs) ++ '-' :: 'f' :: 'o' :: '-' :: d :: '0' :: '0' :: '0' :: '0' :: '-' :: rest := by
      rw [← hspan.1, ← hspan.2, List.takeWhile_append_dropWhile]
    have hn : ∀ x ∈ (c :: cs).reverse, x.isDigit = true := by
      intro x hx
      rw [List.mem_reverse, ← hspan.1] at hx
      exact List.mem_takeWhile_imp hx
    have hd : d.isDigit = true := by
      simp only [Bool.and_eq_true, decide_eq_true_eq, Char.le_def, UInt32.le_iff_toNat_le] at hc
      have hlow : '2'.val.toNat = 50 := rfl
      have hhigh : '9'.val.toNat = 57 := rfl
      simp only [Char.isDigit, Bool.and_eq_true, decide_eq_true_eq, ge_iff_le, UInt32.le_iff_toNat_le]
      exact ⟨show 48 ≤ d.val.toNat by omega, show d.val.toNat ≤ 57 by omega⟩
    refine h rest.reverse ['0', '0', '0', '0', d] (c :: cs).reverse (by simp [hd]) (by simp) hn (by simp) ?_
    rw [← hfront, List.reverse_eq_iff.mp hread]
    simp
  · cases hc

/-! ## The listing -/

/-- How many of the model roots are searched down to `path`. -/
def reached (host : Host) (path : String) : Nat := host.model_roots.countP (Paths.matches_below · ".gguf" path)

theorem count_filter_nodup {α : Type} [DecidableEq α] {l : List α} {p : α → Bool} {a : α} (hn : l.Nodup) (ha : a ∈ l) :
    (l.filter p).count a = if p a = true then 1 else 0 := by
  by_cases hp : p a = true
  · rw [List.count_filter hp, if_pos hp, List.count_eq_one_of_mem hn ha]
  · rw [if_neg hp, List.count_eq_zero]
    simp [hp]

theorem count_model_files (hn : host.paths.Nodup) (hp : path ∈ host.paths) : (model_files host).count path =
    if shard_continuation path = false ∧ projector path = false then reached host path else 0 := by
  unfold model_files
  by_cases h : shard_continuation path = false ∧ projector path = false
  · rw [if_pos h, List.count_filter (by simp [h.2]), List.count_filter (by simp [h.1]), List.count_flatMap, reached]
    induction host.model_roots with
    | nil => rfl
    | cons root roots ih =>
      rw [List.map_cons, List.sum_cons, ih, List.countP_cons]
      simp only [Function.comp, Host.wildcard_below]
      rw [count_filter_nodup hn hp]
      omega
  · rw [if_neg h, List.count_eq_zero]
    simp only [List.mem_filter, not_and]
    grind

/-! ## The files of a split in a directory -/

theorem shard_below : shard (dir ++ "/" ++ base) k n = dir ++ "/" ++ shard base k n := by
  simp [shard, String.append_assoc]

theorem slash_not_mem_shard (h : '/' ∉ base.toList) : '/' ∉ (shard base k n).toList := by
  have hpad : ∀ m, '/' ∉ (Text.pad 5 m).toList := by
    intro m hm
    exact absurd (Text.digit_of_mem_pad hm) (by decide)
  simp [shard, h, hpad]

theorem shard_ne_empty : shard base k n ≠ "" := by
  have hdash : '-' ∈ (shard base k n).toList := by simp [shard]
  exact Text.ne_empty_of_mem hdash

theorem toLower_of_digit {c : Char} (h : c.isDigit = true) : c.toLower = c := by
  simp only [Char.isDigit, Bool.and_eq_true, decide_eq_true_eq] at h
  unfold Char.toLower
  rw [dif_neg]
  intro hu
  grind

theorem projector_shard (h : '/' ∉ base.toList) :
    projector (shard (dir ++ "/" ++ base) k n) = Text.contains base.toLower "mmproj" := by
  have hback : ¬ "mmproj".toList <:+: ((Text.pad 5 k ++ "-of-" ++ Text.pad 5 n ++ ".gguf").toList.map Char.toLower) := by
    intro hin
    have hm := hin.mem (show 'm' ∈ "mmproj".toList by decide)
    have hpad : ∀ m, 'm' ∉ (Text.pad 5 m).toList.map Char.toLower := by
      intro m hm
      obtain ⟨c, hc, he⟩ := List.mem_map.mp hm
      rw [toLower_of_digit (Text.digit_of_mem_pad hc)] at he
      exact absurd (he ▸ Text.digit_of_mem_pad hc) (by decide)
    simp [hpad] at hm
  rw [projector, shard_below, Paths.basename_append (slash_not_mem_shard h) shard_ne_empty]
  unfold Text.contains String.toLower
  rw [String.toList_map, String.toList_map]
  have htext : (shard base k n).toList.map Char.toLower = base.toList.map Char.toLower ++ '-' ::
      ((Text.pad 5 k ++ "-of-" ++ Text.pad 5 n ++ ".gguf").toList.map Char.toLower) := by
    simp [shard]
  rw [htext, decide_eq_decide, Text.infix_append_cons (by decide)]
  simp only [hback, or_false]

theorem reached_shard (k' : Nat) (h : '/' ∉ base.toList) :
    reached host (shard (dir ++ "/" ++ base) k n) = reached host (shard (dir ++ "/" ++ base) k' n) := by
  have hvisible : Paths.visible (shard base k n) = Paths.visible (shard base k' n) := by
    unfold Paths.visible shard
    cases hb : base.toList <;> simp [hb]
  unfold reached
  congr 1
  funext root
  rw [shard_below, shard_below, Bool.eq_iff_iff, Paths.matches_below_append (slash_not_mem_shard h) shard_ne_empty,
    Paths.matches_below_append (slash_not_mem_shard h) shard_ne_empty, hvisible, ends_with_shard, ends_with_shard]

/-- The listing has one entry for the files of the split, and its path is the first of them. -/
def ListedOnce (host : Host) (stem : String) (n : Nat) : Prop :=
  ∃ refs ref, inventory host = .ok refs ∧ refs.filter (·.path ∈ shards stem n) = [ref] ∧ ref.path = shard stem 1 n

theorem filter_eq_singleton_iff {α : Type} [DecidableEq α] {l : List α} {p : α → Bool} {a : α} (hp : p a = true) :
    l.filter p = [a] ↔ l.count a = 1 ∧ ∀ b ∈ l, p b = true → b = a := by
  constructor
  · intro h
    refine ⟨?_, fun b hb hpb => ?_⟩
    · rw [← List.count_filter hp, h, List.count_singleton_self]
    · have hmem : b ∈ l.filter p := List.mem_filter.mpr ⟨hb, hpb⟩
      rw [h] at hmem
      exact List.mem_singleton.mp hmem
  · intro h
    have hall : ∀ b ∈ l.filter p, b = a := by
      intro b hb
      exact h.2 b (List.mem_filter.mp hb).1 (List.mem_filter.mp hb).2
    have hlength : (l.filter p).length = 1 := by
      rw [← h.1, ← List.count_filter hp]
      exact (List.count_eq_length.mpr fun b hb => (hall b hb).symm).symm
    rw [List.eq_replicate_iff.mpr ⟨hlength, hall⟩]
    rfl

theorem listedOnce_iff_files :
    ListedOnce host stem n ↔ (model_files host).filter (· ∈ shards stem n) = [shard stem 1 n] := by
  unfold ListedOnce inventory
  simp only [Except.ok.injEq, exists_and_left, exists_eq_left', List.filter_map]
  constructor
  · intro h
    obtain ⟨ref, href, hpath⟩ := h
    obtain ⟨path, hfiles, rfl⟩ := List.map_eq_singleton_iff.mp href
    rw [← hpath]
    exact hfiles
  · intro h
    refine ⟨ref_from_path host (shard stem 1 n), ?_, rfl⟩
    exact List.map_eq_singleton_iff.mpr ⟨_, h, rfl⟩

theorem shard_listed_iff (hn : host.paths.Nodup) (hb : '/' ∉ base.toList)
    (hp : shard (dir ++ "/" ++ base) k n ∈ host.paths) :
    (model_files host).count (shard (dir ++ "/" ++ base) k n) =
      if ¬ (2 ≤ k ∧ k ≤ 9) ∧ Text.contains base.toLower "mmproj" = false then
        reached host (shard (dir ++ "/" ++ base) 1 n) else 0 := by
  have hcont : shard_continuation (shard (dir ++ "/" ++ base) k n) = false ↔ ¬ (2 ≤ k ∧ k ≤ 9) := by
    rw [← shard_continuation_shard, Bool.not_eq_true]
  rw [count_model_files hn hp, projector_shard hb, reached_shard 1 hb]
  simp only [hcont]

/-- A split is listed once exactly when it has no file past the ninth, is no projector, and is come upon once. -/
theorem listedOnce_iff (hn : host.paths.Nodup) (hb : '/' ∉ base.toList) (h1 : 1 ≤ n)
    (hheld : ∀ path ∈ shards (dir ++ "/" ++ base) n, path ∈ host.paths) :
    ListedOnce host (dir ++ "/" ++ base) n ↔
      n ≤ 9 ∧ Text.contains base.toLower "mmproj" = false ∧ reached host (shard (dir ++ "/" ++ base) 1 n) = 1 := by
  have hmem : ∀ k, 1 ≤ k → k ≤ n → shard (dir ++ "/" ++ base) k n ∈ shards (dir ++ "/" ++ base) n :=
    fun k hk hkn => mem_shards.mpr ⟨k, hk, hkn, rfl⟩
  have hcount : ∀ k, 1 ≤ k → k ≤ n → _ := fun k hk hkn => shard_listed_iff hn hb (hheld _ (hmem k hk hkn))
  rw [listedOnce_iff_files, filter_eq_singleton_iff (by simpa using hmem 1 le_rfl h1), hcount 1 le_rfl h1]
  constructor
  · intro h
    obtain ⟨hone, hothers⟩ := h
    by_cases hbase : Text.contains base.toLower "mmproj" = false
    · have hreached : reached host (shard (dir ++ "/" ++ base) 1 n) = 1 := by simpa [hbase] using hone
      refine ⟨?_, hbase, hreached⟩
      by_contra hbig
      -- the tenth file passes the filter, and is not the first
      have htenth := hcount 10 (by omega) (by omega)
      rw [if_pos ⟨by omega, hbase⟩, hreached] at htenth
      have hlisted : shard (dir ++ "/" ++ base) 10 n ∈ model_files host := List.count_pos_iff.mp (by omega)
      have heq := hothers _ hlisted (by simpa using hmem 10 (by omega) (by omega))
      exact absurd (shard_inj heq) (by decide)
    · simp [hbase] at hone
  · intro h
    obtain ⟨h9, hbase, hreached⟩ := h
    refine ⟨by simp [hbase, hreached], fun path hpath hs => ?_⟩
    obtain ⟨k, hk, hkn, rfl⟩ := mem_shards.mp (of_decide_eq_true hs)
    have hpos := List.count_pos_iff.mpr hpath
    rw [hcount k hk hkn] at hpos
    by_cases hone : k = 1
    · rw [hone]
    · rw [if_neg fun h => h.1 ⟨by omega, by omega⟩] at hpos
      omega

/-- An unsharded file is listed as often as it is come upon, projectors apart. -/
theorem unsharded_listed_iff (hn : host.paths.Nodup) (hp : path ∈ host.paths) (hu : Unsharded path) {refs : List ModelRef}
    (hrefs : inventory host = .ok refs) :
    refs.countP (·.path = path) = 1 ↔ projector path = false ∧ reached host path = 1 := by
  cases hrefs
  have hcount : ((model_files host).map (ref_from_path host)).countP (·.path = path) = (model_files host).count path := by
    rw [List.countP_map, List.count]
    congr 1
  rw [hcount, count_model_files hn hp]
  by_cases hproj : projector path = false
  · simp [hu.continuation, hproj]
  · simp [hproj]

/-- **Split models.** The `n` files of a split are listed as one model exactly when
there are at most nine, and in a place that is searched once; a file of no split
whenever its place is. -/
theorem split_listed_once_iff (hn : host.paths.Nodup) (hb : '/' ∉ base.toList) (h1 : 1 ≤ n)
    (hheld : ∀ path ∈ shards (dir ++ "/" ++ base) n, path ∈ host.paths) :
    (ListedOnce host (dir ++ "/" ++ base) n ↔
      n ≤ 9 ∧ Text.contains base.toLower "mmproj" = false ∧ reached host (shard (dir ++ "/" ++ base) 1 n) = 1) ∧
    ∀ refs, inventory host = .ok refs → ∀ path ∈ host.paths, Unsharded path →
      (refs.countP (·.path = path) = 1 ↔ projector path = false ∧ reached host path = 1) :=
  ⟨listedOnce_iff hn hb h1 hheld, fun _ hrefs _ hp hu => unsharded_listed_iff hn hp hu hrefs⟩

/-- A root that holds the files of one split. -/
def split_host (n : Nat) : Host := {
  slots := [8081]
  host_id := "split"
  model_roots := ["/h"]
  sha256 := fun _ => Vector.replicate 32 0
  float_to_string := fun _ _ => ""
  paths := shards ("/h" ++ "/" ++ "m") n
  file_size := fun _ => some 40 }

theorem split_listed_once_iff_two : ListedOnce (split_host 2) ("/h" ++ "/" ++ "m") 2 ↔
    2 ≤ 9 ∧ Text.contains "m".toLower "mmproj" = false ∧ reached (split_host 2) (shard ("/h" ++ "/" ++ "m") 1 2) = 1 :=
  (split_listed_once_iff shards_nodup (by decide) (by decide) fun _ hp => hp).1

/-- Ten files are listed as two models. -/
theorem tenth_shard_listed : ¬ ListedOnce (split_host 10) ("/h" ++ "/" ++ "m") 10 := by
  rw [listedOnce_iff shards_nodup (by decide) (by decide) fun _ hp => hp]
  intro h
  exact absurd h.1 (by decide)

end LlamaCpp

/-! ## The size of a model -/

/-- The weights a launch of `ref` reads: every file of a split, one GGUF file, or the safetensors of a snapshot. -/
inductive Loads (host : Host) (ref : ModelRef) : List String → Prop
  | split {stem : String} {k n : Nat} : ref.engine = .llama_cpp → 1 ≤ k → k ≤ n → ref.path = shard stem k n →
    Loads host ref (shards stem n)
  | single : ref.engine = .llama_cpp → (∀ stem k n, 1 ≤ k → k ≤ n → ref.path ≠ shard stem k n) → Loads host ref [ref.path]
  | snapshot : ref.engine = .vllm → Loads host ref (host.wildcard ref.path ".safetensors")

def bytes (host : Host) (path : String) : Nat := (host.file_size path).getD 0

def total_bytes (host : Host) (files : List String) : Nat := (files.map (bytes host)).sum

variable {ref : ModelRef} {refs : List ModelRef} {files : List String} {engine : EngineName}

theorem Loads.of_llama_cpp (h : Loads host ref files) (he : ref.engine = .llama_cpp) : files.Nodup ∧ ref.path ∈ files := by
  cases h with
  | split _ hk hkn hpath => exact ⟨shards_nodup, mem_shards.mpr ⟨_, hk, hkn, hpath⟩⟩
  | single _ _ => exact ⟨List.nodup_singleton _, List.mem_singleton_self _⟩
  | snapshot hv =>
    rw [he] at hv
    cases hv

theorem total_bytes_eq_iff (hn : files.Nodup) (hp : path ∈ files) :
    total_bytes host files = bytes host path ↔ ∀ f ∈ files, f ≠ path → bytes host f = 0 := by
  have hsum : bytes host path + total_bytes host (files.erase path) = total_bytes host files := List.sum_map_erase _ hp
  have hrest : total_bytes host (files.erase path) = 0 ↔ ∀ f ∈ files, f ≠ path → bytes host f = 0 := by
    rw [total_bytes, List.sum_eq_zero_iff_forall_eq_nat, List.forall_mem_map]
    simp only [hn.mem_erase_iff]
    exact ⟨fun h f hf hne => h f ⟨hne, hf⟩, fun h f hf => h f hf.2 hf.1⟩
  rw [← hrest, ← hsum]
  omega

theorem Vllm.safetensors_bytes_eq (dir : String) :
    Vllm.safetensors_bytes host dir = total_bytes host (host.wildcard dir ".safetensors") := by
  rw [Vllm.safetensors_bytes, total_bytes, List.sum_eq_foldl, List.foldl_map]
  rfl

/-- What the listing of either adapter makes of an artefact. -/
theorem ref_of_inventory (hrefs : Engine.inventory host engine = .ok refs) (hr : ref ∈ refs) :
    (ref.engine = .llama_cpp ∧ ref.size_bytes = host.file_size ref.path) ∨
      (ref.engine = .vllm ∧ ref.size_bytes = some (Vllm.safetensors_bytes host ref.path)) := by
  rw [Engine.inventory_eq] at hrefs
  cases hm : (Engine.listed_by host engine).mapM (Artefact.ref host) with
  | none => simp [hm, Engine.gathered] at hrefs
  | some found =>
    rw [hm] at hrefs
    cases hrefs
    rw [(Listing.mapM_eq_some.mp hm).1, List.mem_filterMap] at hr
    obtain ⟨artefact, -, href⟩ := hr
    cases artefact with
    | gguf path =>
      cases href
      exact .inl ⟨rfl, rfl⟩
    | snapshot dir =>
      simp only [Artefact.ref, Vllm.ref_from_dir, Option.bind_eq_bind, Option.bind_eq_some_iff, Option.pure_def,
        Option.some.injEq] at href
      obtain ⟨quant, -, id, -, ctx, -, rfl⟩ := href
      exact .inr ⟨rfl, rfl⟩

/-- **Sizes.** A listed size is that of all the weights exactly when the model is a
snapshot, or its file can be looked at and every other file of its split is empty. -/
theorem size_whole_iff (hrefs : Engine.inventory host engine = .ok refs) (hr : ref ∈ refs) (hl : Loads host ref files) :
    ref.size_bytes = some (total_bytes host files) ↔
      ref.engine = .vllm ∨ ((host.file_size ref.path).isSome = true ∧ ∀ f ∈ files, f ≠ ref.path → bytes host f = 0) := by
  obtain ⟨he, hs⟩ | ⟨he, hs⟩ := ref_of_inventory hrefs hr
  · obtain ⟨hn, hp⟩ := hl.of_llama_cpp he
    have hne : ¬ EngineName.llama_cpp = .vllm := by decide
    rw [hs, ← total_bytes_eq_iff hn hp, he, bytes]
    simp only [hne, false_or]
    cases host.file_size ref.path with
    | none => simp
    | some size => simp [eq_comm]
  · have hfiles : files = host.wildcard ref.path ".safetensors" := by
      cases hl with
      | split h _ _ _ => rw [he] at h; cases h
      | single h _ => rw [he] at h; cases h
      | snapshot _ => rfl
    rw [hs, hfiles, Vllm.safetensors_bytes_eq]
    simp [he]

theorem first_shard_listed : LlamaCpp.ref_from_path (LlamaCpp.split_host 2) (shard ("/h" ++ "/" ++ "m") 1 2) ∈
    (LlamaCpp.model_files (LlamaCpp.split_host 2)).map (LlamaCpp.ref_from_path (LlamaCpp.split_host 2)) := by
  apply List.mem_map_of_mem
  apply List.count_pos_iff.mp
  rw [LlamaCpp.shard_listed_iff shards_nodup (by decide) (mem_shards.mpr ⟨1, by decide, by decide, rfl⟩),
    if_pos ⟨by decide, by decide +kernel⟩]
  decide +kernel

theorem first_shard_loads : Loads (LlamaCpp.split_host 2)
    (LlamaCpp.ref_from_path (LlamaCpp.split_host 2) (shard ("/h" ++ "/" ++ "m") 1 2)) (shards ("/h" ++ "/" ++ "m") 2) :=
  .split rfl le_rfl (by decide) rfl

theorem size_whole_iff_two_shards :
    (LlamaCpp.ref_from_path (LlamaCpp.split_host 2) (shard ("/h" ++ "/" ++ "m") 1 2)).size_bytes =
        some (total_bytes (LlamaCpp.split_host 2) (shards ("/h" ++ "/" ++ "m") 2)) ↔
      EngineName.llama_cpp = .vllm ∨ (((LlamaCpp.split_host 2).file_size (shard ("/h" ++ "/" ++ "m") 1 2)).isSome = true ∧
        ∀ f ∈ shards ("/h" ++ "/" ++ "m") 2, f ≠ shard ("/h" ++ "/" ++ "m") 1 2 → bytes (LlamaCpp.split_host 2) f = 0) :=
  have hrefs : Engine.inventory (LlamaCpp.split_host 2) .llama_cpp = .ok _ := rfl
  size_whole_iff hrefs first_shard_listed first_shard_loads

/-- Two files of forty bytes are listed as a model of forty. -/
theorem second_shard_not_counted : ∃ host refs ref files, Engine.inventory host .llama_cpp = .ok refs ∧ ref ∈ refs ∧
    Loads host ref files ∧ ref.size_bytes ≠ some (total_bytes host files) :=
  ⟨LlamaCpp.split_host 2, _, _, _, rfl, first_shard_listed, first_shard_loads, by decide⟩

end AiroAgent
