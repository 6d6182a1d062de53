import AiroAgent.Lib.Packing
import Mathlib.Algebra.Order.Floor.Div
import Mathlib.Algebra.Order.BigOperators.Group.List

/-!
# The indexer workspace

The overlay that sizes the gather workspace of a sparse indexer by what a step
can ask for. The splitter cuts a prefill step into chunks that fit into it; it
must cut every step as it did with the stock size.
-/

namespace AiroAgent.IndexerWorkspace

/-! ## Sizing -/

/-- `index_kpool` is what `int(raw or 1)` reads, if it reads a number. -/
structure Config where
  max_model_len : Nat
  index_kpool : Option Int
  max_num_seqs : Nat
  max_num_batched_tokens : Nat
  num_speculative_tokens : Nat

inductive Mode where
  | stock
  | rightsize
  deriving DecidableEq

inductive BootError where
  | mode (raw : String)
  | compress_ratio_disagreement (index_kpool compress_ratio : Nat)
  | below_legal_maximum (workspace need : Nat)
  deriving DecidableEq

def workspace_mode : Option String → Except BootError Mode
  | none => .ok .stock
  | some "stock" => .ok .stock
  | some "rightsize" => .ok .rightsize
  | some raw => .error (.mode raw)

def stock_workspace_entries (max_model_len : Nat) : Nat := max_model_len * 40

def indexer_compress_ratio (c : Config) : Nat :=
  match c.index_kpool with
  | some ratio => if 1 < ratio then ratio.toNat else 1
  | none => 1

def max_prefill_reqs (c : Config) : Nat := max 1 (min c.max_num_seqs c.max_num_batched_tokens)

def per_req (c : Config) (ratio : Nat) : Nat := (c.max_model_len + c.num_speculative_tokens) ⌈/⌉ ratio

def rightsized_workspace_entries (c : Config) : Nat :=
  let stock := stock_workspace_entries c.max_model_len
  let ratio := indexer_compress_ratio c
  if ratio ≤ 1 then stock else min (per_req c ratio * max_prefill_reqs c) stock

def get_max_prefill_buffer_size (env : Option String) (c : Config) : Except BootError Nat := do
  let stock := stock_workspace_entries c.max_model_len
  let mode ← workspace_mode env
  if mode ≠ .rightsize then return stock
  let entries := rightsized_workspace_entries c
  if stock ≤ entries then return stock
  return entries

/-- The check in the builder, against the ratio the runtime divides by. -/
def builder_check (env : Option String) (c : Config) (compress_ratio max_prefill_buffer_size : Nat) : Except BootError Unit := do
  let mode ← workspace_mode env
  if mode = .rightsize then
    let cfg_ratio := indexer_compress_ratio c
    if cfg_ratio ≠ compress_ratio then throw (.compress_ratio_disagreement cfg_ratio compress_ratio)
    let need := rightsized_workspace_entries c
    if max_prefill_buffer_size < min need (stock_workspace_entries c.max_model_len) then
      throw (.below_legal_maximum max_prefill_buffer_size need)

def boot (env : Option String) (c : Config) (compress_ratio : Nat) : Except BootError Nat := do
  let size ← get_max_prefill_buffer_size env c
  builder_check env c compress_ratio size
  return size

/-! ## The splitter -/

/-- The query tokens of a request in one step, and its sequence length. -/
structure Request where
  query_len : Nat
  seq_len : Nat
  deriving DecidableEq

/-- The requests of a chunk from the first up to the next chunk's, and the rows of their queries. -/
abbrev Chunk := (Nat × Nat) × (Nat × Nat)

def add_request (load : Nat × Nat) (r : Request) : Nat × Nat := (load.1 + r.query_len, load.2 + r.seq_len)

def fits (workspace_size max_logits_elems : Nat) (load : Nat × Nat) : Bool :=
  load.2 ≤ workspace_size && load.1 * load.2 ≤ max_logits_elems

def sub_chunks (max_logits_elems start : Nat) (group : List Request) : List Chunk :=
  let (chunk_m, chunk_n) := group.foldl add_request (0, 0)
  let max_q := if 0 < chunk_n then max 1 (max_logits_elems / chunk_n) else max 1 chunk_m
  (Packing.steps max_q 0 chunk_m).map fun rows => ((start, start + group.length), rows)

def chunks_from (max_logits_elems : Nat) : Nat → List (List Request) → List Chunk
  | _, [] => []
  | start, group :: groups =>
    sub_chunks max_logits_elems start group ++ chunks_from max_logits_elems (start + group.length) groups

/-- `requests` have the lengths the indexer sees, in pools. -/
def split_prefill_chunks (requests : List Request) (workspace_size max_logits_bytes : Nat) : List Chunk :=
  let max_logits_elems := max_logits_bytes / 4
  chunks_from max_logits_elems 0 (Packing.pack add_request (0, 0) (fits workspace_size max_logits_elems) requests)

def compress (ratio : Nat) (r : Request) : Request := { r with seq_len := r.seq_len / ratio }

structure Legal (c : Config) (step : List Request) : Prop where
  seqs : step.length ≤ c.max_num_seqs
  queries : ∀ r ∈ step, 0 < r.query_len
  tokens : (step.map Request.query_len).sum ≤ c.max_num_batched_tokens
  lens : ∀ r ∈ step, r.seq_len ≤ c.max_model_len + c.num_speculative_tokens

/-! ## What a step can ask for -/

section
variable {env : Option String} {c : Config} {compress_ratio size bytes elems : Nat} {step group : List Request}
  {groups : List (List Request)} {load : Nat × Nat}

theorem foldl_add_request : group.foldl add_request load =
    (load.1 + (group.map Request.query_len).sum, load.2 + (group.map Request.seq_len).sum) := by
  induction group generalizing load with
  | nil => rfl
  | cons r group ih =>
    rw [List.foldl_cons, ih]
    simp [add_request, Nat.add_assoc]

theorem length_le_tokens (h : ∀ r ∈ step, 0 < r.query_len) : step.length ≤ (step.map Request.query_len).sum := by
  induction step with
  | nil => simp
  | cons r step ih =>
    rw [List.forall_mem_cons] at h
    have htail := ih h.2
    have hhead := h.1
    simp only [List.length_cons, List.map_cons, List.sum_cons]
    omega

theorem Legal.length_le (h : Legal c step) : step.length ≤ max_prefill_reqs c := by
  have htokens := (length_le_tokens h.queries).trans h.tokens
  have hseqs := h.seqs
  unfold max_prefill_reqs
  omega

theorem Legal.compressed_le {ratio : Nat} (h : Legal c step) {r : Request} (hr : r ∈ step) : (compress ratio r).seq_len ≤ per_req c ratio := by
  have hlen := h.lens r hr
  unfold per_req
  rw [Nat.ceilDiv_eq_add_pred_div]
  rcases Nat.eq_zero_or_pos ratio with rfl | hpos
  · simp [compress]
  · exact Nat.div_le_div_right (by omega)

/-- No part of a legal step is longer than the legal maximum. -/
theorem Legal.load_le {ratio : Nat} (h : Legal c step) (hg : group <:+: step.map (compress ratio)) :
    (group.map Request.seq_len).sum ≤ per_req c ratio * max_prefill_reqs c := by
  have hlen : group.length ≤ max_prefill_reqs c := by
    have hle := hg.length_le
    rw [List.length_map] at hle
    exact hle.trans h.length_le
  have hsum : (group.map Request.seq_len).sum ≤ group.length * per_req c ratio := by
    have hmem : ∀ n ∈ group.map Request.seq_len, n ≤ per_req c ratio := by
      intro n hn
      obtain ⟨r, hr, rfl⟩ := List.mem_map.mp hn
      obtain ⟨r', hr', rfl⟩ := List.mem_map.mp (hg.subset hr)
      exact h.compressed_le hr'
    have hcard := List.sum_le_card_nsmul (group.map Request.seq_len) (per_req c ratio) hmem
    rwa [List.length_map, smul_eq_mul] at hcard
  calc (group.map Request.seq_len).sum ≤ group.length * per_req c ratio := hsum
    _ ≤ max_prefill_reqs c * per_req c ratio := Nat.mul_le_mul_right _ hlen
    _ = per_req c ratio * max_prefill_reqs c := Nat.mul_comm _ _

theorem rightsized_le (c : Config) : rightsized_workspace_entries c ≤ stock_workspace_entries c.max_model_len := by
  unfold rightsized_workspace_entries
  dsimp only
  split
  · exact le_refl _
  · exact min_le_right _ _

theorem size_rightsize (hm : workspace_mode env = .ok .rightsize) :
    get_max_prefill_buffer_size env c = .ok (rightsized_workspace_entries c) := by
  have hle := rightsized_le c
  simp only [get_max_prefill_buffer_size, hm, bind, Except.bind, pure, Except.pure, ne_eq, not_true, if_false]
  by_cases hs : stock_workspace_entries c.max_model_len ≤ rightsized_workspace_entries c
  · rw [if_pos hs, le_antisymm hle hs]
  · rw [if_neg hs]

/-- Every boot: only another mode or another ratio keeps it from serving. -/
theorem boot_eq : boot env c compress_ratio = (workspace_mode env).bind fun
    | .stock => .ok (stock_workspace_entries c.max_model_len)
    | .rightsize =>
      if indexer_compress_ratio c = compress_ratio then .ok (rightsized_workspace_entries c)
      else .error (.compress_ratio_disagreement (indexer_compress_ratio c) compress_ratio) := by
  cases hm : workspace_mode env with
  | error e => simp [boot, get_max_prefill_buffer_size, hm, bind, Except.bind]
  | ok mode =>
    cases mode with
    | stock => simp [boot, get_max_prefill_buffer_size, builder_check, hm, bind, Except.bind, pure, Except.pure]
    | rightsize =>
      have hsize : get_max_prefill_buffer_size env c = .ok (rightsized_workspace_entries c) := size_rightsize hm
      by_cases hr : indexer_compress_ratio c = compress_ratio
      · simp [boot, hsize, builder_check, hm, hr, rightsized_le c, bind, Except.bind, pure, Except.pure]
      · simp [boot, hsize, builder_check, hm, hr, bind, Except.bind, throw, throwThe, MonadExceptOf.throw]

/-- What is served with: the stock size, or the legal maximum below it at the ratio of the runtime. -/
theorem boot_ok (h : boot env c compress_ratio = .ok size) :
    size = stock_workspace_entries c.max_model_len ∨
      (size = per_req c compress_ratio * max_prefill_reqs c ∧ size < stock_workspace_entries c.max_model_len) := by
  rw [boot_eq] at h
  cases hm : workspace_mode env with
  | error e => simp [hm, Except.bind] at h
  | ok mode =>
    simp only [hm, Except.bind] at h
    cases mode with
    | stock =>
      cases h
      exact .inl rfl
    | rightsize =>
      by_cases hr : indexer_compress_ratio c = compress_ratio
      · simp only [hr, if_true, Except.ok.injEq] at h
        subst h hr
        unfold rightsized_workspace_entries
        dsimp only
        split
        · exact .inl rfl
        · by_cases hs : stock_workspace_entries c.max_model_len ≤ per_req c (indexer_compress_ratio c) * max_prefill_reqs c
          · exact .inl (min_eq_right hs)
          · rw [not_le] at hs
            rw [min_eq_left hs.le]
            exact .inr ⟨rfl, hs⟩
      · simp only [hr, if_false] at h
        cases h

/-! ## The chunks of a step -/

/-- **The chunk list is the stock one.** However the engine boots, its workspace is no larger than
stock, and a legal step is cut as with the stock workspace. -/
theorem rightsize_same_chunks (hb : boot env c compress_ratio = .ok size) (hl : Legal c step) (bytes : Nat) :
    size ≤ stock_workspace_entries c.max_model_len ∧
      split_prefill_chunks (step.map (compress compress_ratio)) size bytes =
        split_prefill_chunks (step.map (compress compress_ratio)) (stock_workspace_entries c.max_model_len) bytes := by
  rcases boot_ok hb with rfl | ⟨rfl, hlt⟩
  · exact ⟨le_refl _, rfl⟩
  · refine ⟨hlt.le, ?_⟩
    have hpack : Packing.pack add_request (0, 0) (fits (per_req c compress_ratio * max_prefill_reqs c) (bytes / 4))
          (step.map (compress compress_ratio)) =
        Packing.pack add_request (0, 0) (fits (stock_workspace_entries c.max_model_len) (bytes / 4))
          (step.map (compress compress_ratio)) := by
      apply Packing.pack_congr
      intro group _ hg
      have hload := hl.load_le hg
      have hstock := hload.trans hlt.le
      rw [foldl_add_request]
      simp [fits, hload, hstock]
    unfold split_prefill_chunks
    dsimp only
    rw [hpack]

/-! The payload that opts in, and a step that a long prompt and a short one share. -/

def flash : Config := ⟨524288, some 4, 4, 2048, 7⟩

def long_and_short : List Request := [⟨1024, 500000⟩, ⟨8, 900⟩]

example : boot (some "rightsize") flash 4 = .ok 524296 ∧ boot none flash 4 = .ok 20971520 := by decide

theorem legal_long_and_short : Legal flash long_and_short := ⟨by decide, by decide, by decide, by decide⟩

theorem rightsize_same_chunks_flash : boot (some "rightsize") flash 4 = .ok 524296 ∧
    524296 ≤ stock_workspace_entries flash.max_model_len ∧
      split_prefill_chunks (long_and_short.map (compress 4)) 524296 268435456 =
        split_prefill_chunks (long_and_short.map (compress 4)) (stock_workspace_entries flash.max_model_len) 268435456 :=
  have hb : boot (some "rightsize") flash 4 = .ok 524296 := by decide
  ⟨hb, rightsize_same_chunks hb legal_long_and_short 268435456⟩

-- without the check of the builder, a size for pools would be filled with tokens
example : boot (some "rightsize") ⟨8, some 4, 2, 8, 0⟩ 1 = .error (.compress_ratio_disagreement 4 1) ∧
    split_prefill_chunks [⟨1, 8⟩, ⟨1, 8⟩] (rightsized_workspace_entries ⟨8, some 4, 2, 8, 0⟩) 400 ≠
      split_prefill_chunks [⟨1, 8⟩, ⟨1, 8⟩] (stock_workspace_entries 8) 400 := by
  decide +kernel

def Chunk.requests (requests : List Request) (chunk : Chunk) : List Request :=
  (requests.drop chunk.1.1).take (chunk.1.2 - chunk.1.1)

def Chunk.entries (requests : List Request) (chunk : Chunk) : Nat := ((Chunk.requests requests chunk).map Request.seq_len).sum

def Chunk.rows (chunk : Chunk) : Nat := chunk.2.2 - chunk.2.1

/-- Query token `j` of request `i` is among the rows of the chunk. -/
def Chunk.holds (requests : List Request) (i j : Nat) (chunk : Chunk) : Bool :=
  let row := (((requests.take i).drop chunk.1.1).map Request.query_len).sum + j
  chunk.1.1 ≤ i && i < chunk.1.2 && chunk.2.1 ≤ row && row < chunk.2.2

def max_rows (max_logits_elems : Nat) (group : List Request) : Nat :=
  let entries := (group.map Request.seq_len).sum
  if 0 < entries then max 1 (max_logits_elems / entries) else max 1 (group.map Request.query_len).sum

theorem sub_chunks_eq {start : Nat} : sub_chunks elems start group =
    (Packing.steps (max_rows elems group) 0 (group.map Request.query_len).sum).map fun rows => ((start, start + group.length), rows) := by
  unfold sub_chunks max_rows
  rw [foldl_add_request]
  simp only [Nat.zero_add]

theorem max_rows_pos : 0 < max_rows elems group := by
  unfold max_rows
  dsimp only
  split <;> omega

variable {requests before : List Request} {chunk : Chunk} {start i j : Nat} {r : Request}

theorem start_le (h : chunk ∈ chunks_from elems start groups) : start ≤ chunk.1.1 := by
  induction groups generalizing start with
  | nil => cases h
  | cons group groups ih =>
    rw [chunks_from, List.mem_append, sub_chunks_eq, List.mem_map] at h
    rcases h with ⟨rows, _, rfl⟩ | h
    · exact le_refl _
    · exact (Nat.le_add_right _ _).trans (ih h)

theorem mem_chunks_from (hr : requests = before ++ groups.flatten) (hs : before.length = start)
    (h : chunk ∈ chunks_from elems start groups) : ∃ group ∈ groups, Chunk.requests requests chunk = group ∧
      chunk.1.2 = chunk.1.1 + group.length ∧ chunk.2 ∈ Packing.steps (max_rows elems group) 0 (group.map Request.query_len).sum := by
  induction groups generalizing start before with
  | nil => cases h
  | cons group groups ih =>
    rw [chunks_from, List.mem_append, sub_chunks_eq, List.mem_map] at h
    rcases h with ⟨rows, hrows, rfl⟩ | h
    · refine ⟨group, List.mem_cons_self, ?_, rfl, hrows⟩
      subst hr hs
      simp [Chunk.requests]
    · have hr' : requests = (before ++ group) ++ groups.flatten := by
        rw [hr]
        simp
      obtain ⟨group', hg, hrest⟩ := ih hr' (by simp [hs]) h
      exact ⟨group', List.mem_cons_of_mem _ hg, hrest⟩

/-- Within a chunk's requests, the rows of one stand behind the rows of those before it. -/
theorem row_lt (hi : group[i]? = some r) (hj : j < r.query_len) :
    ((group.take i).map Request.query_len).sum + j < (group.map Request.query_len).sum := by
  obtain ⟨hlt, rfl⟩ := List.getElem?_eq_some_iff.mp hi
  have hsplit : group = group.take i ++ group[i] :: group.drop (i + 1) := by
    rw [List.cons_getElem_drop_succ, List.take_append_drop]
  have hsum := congrArg (fun l => (l.map Request.query_len).sum) hsplit
  simp only [List.map_append, List.map_cons, List.sum_append, List.sum_cons] at hsum
  omega

theorem sub_chunks_once (hr : requests = before ++ group ++ groups.flatten) (hs : before.length = start) (hi : start ≤ i ∧ i < start + group.length)
    (hm : requests[i]? = some r) (hj : j < r.query_len) :
    ((sub_chunks elems start group).filter (Chunk.holds requests i j)).length = 1 := by
  subst hs
  have hgroup : group[i - before.length]? = some r := by
    rwa [hr, List.append_assoc, List.getElem?_append_right hi.1, List.getElem?_append_left (by omega)] at hm
  have htake : (requests.take i).drop before.length = group.take (i - before.length) := by
    have hle : i - before.length ≤ group.length := by omega
    rw [List.drop_take, hr, List.append_assoc, List.drop_left, List.take_append_of_le_length hle]
  have hrow := row_lt hgroup hj
  have hholds : ∀ rows : Nat × Nat, Chunk.holds requests i j ((before.length, before.length + group.length), rows) =
      decide (rows.1 ≤ ((group.take (i - before.length)).map Request.query_len).sum + j ∧
        ((group.take (i - before.length)).map Request.query_len).sum + j < rows.2) := by
    intro rows
    simp [Chunk.holds, htake, hi.1, hi.2]
  rw [sub_chunks_eq, List.filter_map, List.length_map]
  simp only [Function.comp_def, hholds]
  exact (Packing.tiles_steps max_rows_pos (Nat.zero_le _)).once ⟨Nat.zero_le _, hrow⟩

theorem chunks_from_once (hr : requests = before ++ groups.flatten) (hs : before.length = start) (hi : start ≤ i)
    (hm : requests[i]? = some r) (hj : j < r.query_len) :
    ((chunks_from elems start groups).filter (Chunk.holds requests i j)).length = 1 := by
  induction groups generalizing start before with
  | nil =>
    have hlen := (List.getElem?_eq_some_iff.mp hm).1
    rw [hr, List.flatten_nil, List.append_nil] at hlen
    omega
  | cons group groups ih =>
    have hr' : requests = (before ++ group) ++ groups.flatten := by
      rw [hr]
      simp
    rw [chunks_from, List.filter_append, List.length_append]
    by_cases hlt : i < start + group.length
    · have hrest : (chunks_from elems (start + group.length) groups).filter (Chunk.holds requests i j) = [] := by
        rw [List.filter_eq_nil_iff]
        intro chunk hc
        have hle := start_le hc
        simp only [Chunk.holds, Bool.and_eq_true, decide_eq_true_eq]
        omega
      rw [hrest, sub_chunks_once hr' hs ⟨hi, hlt⟩ hm hj]
      rfl
    · have hhead : (sub_chunks elems start group).filter (Chunk.holds requests i j) = [] := by
        rw [List.filter_eq_nil_iff]
        intro chunk hc
        rw [sub_chunks_eq, List.mem_map] at hc
        obtain ⟨rows, _, rfl⟩ := hc
        simp [Chunk.holds, hlt]
      rw [hhead, ih hr' (by simp [hs]) (not_lt.mp hlt)]
      rfl

/-- **Every query once.** Whatever the sizes, each query token of a step is in exactly one chunk. -/
theorem every_query_once (hm : requests[i]? = some r) (hj : j < r.query_len) (workspace_size bytes : Nat) :
    ((split_prefill_chunks requests workspace_size bytes).filter (Chunk.holds requests i j)).length = 1 := by
  have hflat : requests = [] ++ (Packing.pack add_request (0, 0) (fits workspace_size (bytes / 4)) requests).flatten :=
    (Packing.flatten_pack add_request (0, 0) (fits workspace_size (bytes / 4)) requests).symm
  exact chunks_from_once hflat rfl (Nat.zero_le i) hm hj

theorem every_query_once_flash : (long_and_short.map (compress 4))[1]? = some ⟨8, 225⟩ ∧
    ((split_prefill_chunks (long_and_short.map (compress 4)) 524296 268435456).filter
      (Chunk.holds (long_and_short.map (compress 4)) 1 7)).length = 1 :=
  ⟨by decide, every_query_once (r := ⟨8, 225⟩) (by decide) (by decide) 524296 268435456⟩

theorem mem_split {workspace_size : Nat} (h : chunk ∈ split_prefill_chunks requests workspace_size bytes) :
    ∃ group, group <:+: requests ∧ Chunk.requests requests chunk = group ∧
      (fits workspace_size (bytes / 4) (group.foldl add_request (0, 0)) = true ∨ ∃ r, group = [r]) ∧
      chunk.2 ∈ Packing.steps (max_rows (bytes / 4) group) 0 (group.map Request.query_len).sum := by
  have hflat : (Packing.pack add_request (0, 0) (fits workspace_size (bytes / 4)) requests).flatten = requests :=
    Packing.flatten_pack add_request (0, 0) (fits workspace_size (bytes / 4)) requests
  have hflat' : requests = [] ++ (Packing.pack add_request (0, 0) (fits workspace_size (bytes / 4)) requests).flatten := hflat.symm
  obtain ⟨group, hg, hreq, _, hrows⟩ := mem_chunks_from hflat' rfl h
  refine ⟨group, ?_, hreq, Packing.fits_of_mem_pack add_request (0, 0) _ hg, hrows⟩
  rw [← hflat]
  exact List.infix_of_mem_flatten hg

theorem rows_le (h : chunk.2 ∈ Packing.steps (max_rows elems group) 0 (group.map Request.query_len).sum) :
    chunk.rows * (group.map Request.seq_len).sum ≤ elems ∨ chunk.rows = 1 := by
  have hrows : chunk.rows ≤ max_rows elems group := Packing.mem_steps h
  have hpos : 0 < chunk.rows := by
    have htile := ((Packing.tiles_steps max_rows_pos (Nat.zero_le _)).bounds h).2.1
    unfold Chunk.rows
    omega
  unfold max_rows at hrows
  dsimp only at hrows
  split at hrows
  · by_cases hone : elems / (group.map Request.seq_len).sum ≤ 1
    · exact .inr (by omega)
    · left
      rw [max_eq_right (by omega)] at hrows
      exact (Nat.mul_le_mul_right _ hrows).trans (Nat.div_mul_le_self _ _)
  · rename_i hzero
    rw [Nat.eq_zero_of_not_pos hzero]
    exact .inl (Nat.zero_le _)

/-- **Chunks fit.** Once the engine has booted, no chunk of a legal step gathers more than the workspace
holds, and none has more logits than it may have, unless it is a single row. -/
theorem chunks_fit (hb : boot env c compress_ratio = .ok size) (hl : Legal c step) (hd : c.num_speculative_tokens ≤ 39 * c.max_model_len)
    (hc : chunk ∈ split_prefill_chunks (step.map (compress compress_ratio)) size bytes) :
    Chunk.entries (step.map (compress compress_ratio)) chunk ≤ size ∧
      (chunk.rows * Chunk.entries (step.map (compress compress_ratio)) chunk ≤ bytes / 4 ∨ chunk.rows = 1) := by
  obtain ⟨group, hg, hreq, hfits, hrows⟩ := mem_split hc
  unfold Chunk.entries
  rw [hreq]
  refine ⟨?_, rows_le hrows⟩
  rcases boot_ok hb with rfl | ⟨rfl, _⟩
  · rcases hfits with hfits | ⟨r, rfl⟩
    · rw [foldl_add_request] at hfits
      simp only [fits, Nat.zero_add, Bool.and_eq_true, decide_eq_true_eq] at hfits
      exact hfits.1
    · -- alone, and still not longer than the model and its draft
      obtain ⟨r', hr', rfl⟩ := List.mem_map.mp (hg.subset List.mem_cons_self)
      have hlen := hl.lens r' hr'
      have hdiv := Nat.div_le_self r'.seq_len compress_ratio
      simp only [List.map_cons, List.map_nil, List.sum_cons, List.sum_nil, compress, stock_workspace_entries]
      omega
  · exact hl.load_le hg

/-- The long prompt is too much for one chunk of logits. -/
theorem split_long_and_short : split_prefill_chunks (long_and_short.map (compress 4)) 524296 268435456 =
    [((0, 1), (0, 536)), ((0, 1), (536, 1024)), ((1, 2), (0, 8))] := by
  decide +kernel

theorem chunks_fit_flash : Chunk.entries (long_and_short.map (compress 4)) ((0, 1), (536, 1024)) ≤ 524296 ∧
    (Chunk.rows ((0, 1), (536, 1024)) * Chunk.entries (long_and_short.map (compress 4)) ((0, 1), (536, 1024)) ≤ 268435456 / 4 ∨
      Chunk.rows ((0, 1), (536, 1024)) = 1) := by
  have hb : boot (some "rightsize") flash 4 = .ok 524296 := by decide
  have hc : ((0, 1), (536, 1024)) ∈ split_prefill_chunks (long_and_short.map (compress 4)) 524296 268435456 := by
    rw [split_long_and_short]
    decide
  exact chunks_fit hb legal_long_and_short (by decide) hc

end

end AiroAgent.IndexerWorkspace
