import Mathlib.Algebra.Order.Group.Int
import Mathlib.Data.List.GetD

/-!
# Slots of the K-pool tail

The overlay that bounds the slot mapping of a paged cache by the request's own
block-table row, for a cache whose row is one block that is used in a circle.
-/

namespace AiroAgent.KpoolTail

inductive SlotError where
  | empty_row
  | sizes
  | zero_division
  | past_stride (pos idx : Int)
  | index
  deriving DecidableEq

/-- The positions that the unpatched kernel would look up past the row. -/
def count_overruns (positions : List Int) (block_size stride : Int) : Except SlotError Nat :=
  if block_size < 1 ∨ stride < 1 then .error .sizes
  else .ok (positions.countP fun pos => stride ≤ pos.fdiv block_size)

/-- `row[idx]`; below zero it is counted from the end. -/
def item (row : List Int) (idx : Int) : Except SlotError Int :=
  let i := if idx < 0 then idx + row.length else idx
  if i < 0 then .error .index
  else
    match row[i.toNat]? with
    | some block => .ok block
    | none => .error .index

def slot_id (block_table_row : List Int) (block_size : Int) (clamp : Bool) (pos : Int) : Except SlotError Int := do
  if block_size = 0 then throw .zero_division
  let stride : Int := block_table_row.length
  let idx := pos.fdiv block_size
  if !clamp && (idx < 0 || stride ≤ idx) then throw (.past_stride pos idx)
  let block ← item block_table_row (if clamp then min idx (stride - 1) else idx)
  return block * block_size + pos.fmod block_size

def circular_slot_ids (positions block_table_row : List Int) (block_size : Int) (clamp : Bool) : Except SlotError (List Int) :=
  if block_table_row = [] then .error .empty_row
  else positions.mapM (slot_id block_table_row block_size clamp)

section
variable {positions row : List Int} {block_size pos idx : Int} {clamp : Bool}

theorem item_inside (h0 : 0 ≤ idx) (h : idx < row.length) : item row idx = .ok (row.getD idx.toNat 0) := by
  have hlt : idx.toNat < row.length := by omega
  have hneg : ¬ idx < 0 := by omega
  simp [item, hneg, hlt]

/-- The slot of a position in its own block, or in the last one there is. -/
def clamped_slot (row : List Int) (block_size pos : Int) : Int :=
  row.getD (min (pos.fdiv block_size) (row.length - 1)).toNat 0 * block_size + pos.fmod block_size

theorem slot_id_clamp (hr : row ≠ []) (hb : 0 < block_size) (hp : 0 ≤ pos) :
    slot_id row block_size true pos = .ok (clamped_slot row block_size pos) := by
  have hlen := List.length_pos_iff.mpr hr
  have hdiv : 0 ≤ pos.fdiv block_size := Int.fdiv_nonneg hp hb.le
  have hitem := @item_inside row (min (pos.fdiv block_size) (row.length - 1)) (by omega) (by omega)
  simp [slot_id, clamped_slot, hb.ne', hitem, pure, Except.pure, bind, Except.bind]

theorem slot_id_inside (hb : 0 < block_size) (hp : 0 ≤ pos) (h : pos.fdiv block_size < row.length) :
    slot_id row block_size false pos = .ok (clamped_slot row block_size pos) := by
  have hdiv : 0 ≤ pos.fdiv block_size := Int.fdiv_nonneg hp hb.le
  have hmin : min (pos.fdiv block_size) (row.length - 1) = pos.fdiv block_size := by omega
  have hguard : ¬ (pos.fdiv block_size < 0 ∨ (row.length : Int) ≤ pos.fdiv block_size) := by omega
  simp [slot_id, clamped_slot, hb.ne', hmin, hguard, item_inside hdiv h, pure, Except.pure, bind, Except.bind]

theorem slot_id_past (hb : 0 < block_size) (h : row.length ≤ pos.fdiv block_size) :
    slot_id row block_size false pos = .error (.past_stride pos (pos.fdiv block_size)) := by
  simp [slot_id, hb.ne', h, throw, throwThe, MonadExceptOf.throw, bind, Except.bind]

/-- Without the clamp the first position past the row is the one that fails. -/
theorem mapM_slot_id (hb : 0 < block_size) (hp : ∀ pos ∈ positions, 0 ≤ pos) : positions.mapM (slot_id row block_size false) =
    match positions.find? fun pos : Int => (row.length : Int) ≤ pos.fdiv block_size with
    | none => .ok (positions.map (clamped_slot row block_size))
    | some pos => .error (.past_stride pos (pos.fdiv block_size)) := by
  induction positions with
  | nil => rfl
  | cons pos positions ih =>
    rw [List.forall_mem_cons] at hp
    rw [List.mapM_cons]
    by_cases h : row.length ≤ pos.fdiv block_size
    · rw [slot_id_past hb h, List.find?_cons_of_pos (by simpa using h)]
      rfl
    · rw [slot_id_inside hb hp.1 (not_le.mp h), ih hp.2, List.find?_cons_of_neg (by simpa using h)]
      cases positions.find? fun pos : Int => (row.length : Int) ≤ pos.fdiv block_size with
      | none => rfl
      | some pos => rfl

theorem mapM_slot_id_clamp (hr : row ≠ []) (hb : 0 < block_size) (hp : ∀ pos ∈ positions, 0 ≤ pos) :
    positions.mapM (slot_id row block_size true) = .ok (positions.map (clamped_slot row block_size)) := by
  induction positions with
  | nil => rfl
  | cons pos positions ih =>
    rw [List.forall_mem_cons] at hp
    rw [List.mapM_cons, slot_id_clamp hr hb hp.1, ih hp.2]
    rfl

theorem clamped_slot_block (hr : row ≠ []) (hb : 0 < block_size) (hp : 0 ≤ pos) :
    (clamped_slot row block_size pos).fdiv block_size ∈ row ∧
      (clamped_slot row block_size pos).fmod block_size = pos.fmod block_size := by
  have hlen := List.length_pos_iff.mpr hr
  have hdiv : 0 ≤ pos.fdiv block_size := Int.fdiv_nonneg hp hb.le
  have hlt : (min (pos.fdiv block_size) (row.length - 1)).toNat < row.length := by omega
  have hmod0 : 0 ≤ pos.fmod block_size := Int.fmod_nonneg_of_pos pos hb
  have hmod := Int.fmod_lt_of_pos pos hb
  unfold clamped_slot
  constructor
  · rw [Int.add_comm, Int.add_mul_fdiv_right _ _ hb.ne', Int.fdiv_eq_zero_of_lt hmod0 hmod, Int.zero_add, List.getD_eq_getElem _ _ hlt]
    exact List.getElem_mem hlt
  · rw [Int.add_comm, Int.add_mul_fmod_self_right, Int.fmod_fmod]

/-- **The clamp.** It changes nothing where the unpatched mapping stays within the row, which is where
no overrun is counted, and with it every position has a slot in a block of its own request. -/
theorem clamp_exact (hr : row ≠ []) (hb : 0 < block_size) (hp : ∀ pos ∈ positions, 0 ≤ pos) :
    ∃ slots, circular_slot_ids positions row block_size true = .ok slots ∧
      (circular_slot_ids positions row block_size false = .ok slots ↔ count_overruns positions block_size row.length = .ok 0) ∧
      (∀ slots', circular_slot_ids positions row block_size false = .ok slots' → slots' = slots) ∧
      slots.map (·.fmod block_size) = positions.map (·.fmod block_size) ∧ ∀ slot ∈ slots, slot.fdiv block_size ∈ row := by
  have hsizes : ¬ (block_size < 1 ∨ (row.length : Int) < 1) := by
    have hlen := List.length_pos_iff.mpr hr
    omega
  refine ⟨positions.map (clamped_slot row block_size), ?_, ?_, ?_, ?_, ?_⟩
  · rw [circular_slot_ids, if_neg hr, mapM_slot_id_clamp hr hb hp]
  · rw [circular_slot_ids, if_neg hr, mapM_slot_id hb hp, count_overruns, if_neg hsizes]
    cases hf : positions.find? fun pos : Int => (row.length : Int) ≤ pos.fdiv block_size with
    | none =>
      rw [List.find?_eq_none] at hf
      simp only [true_iff, Except.ok.injEq, List.countP_eq_zero]
      exact hf
    | some pos =>
      have hover := List.find?_some hf
      simp only [reduceCtorEq, false_iff, Except.ok.injEq, List.countP_eq_zero]
      exact fun h => h pos (List.mem_of_find?_eq_some hf) hover
  · intro slots' h
    rw [circular_slot_ids, if_neg hr, mapM_slot_id hb hp] at h
    cases hf : positions.find? fun pos : Int => (row.length : Int) ≤ pos.fdiv block_size with
    | none =>
      simp only [hf, Except.ok.injEq] at h
      exact h.symm
    | some pos => simp [hf] at h
  · rw [List.map_map]
    exact List.map_congr_left fun pos hpos => (clamped_slot_block hr hb (hp pos hpos)).2
  · intro slot hslot
    obtain ⟨pos, hpos, rfl⟩ := List.mem_map.mp hslot
    exact (clamped_slot_block hr hb (hp pos hpos)).1

theorem clamp_exact_tail : ∃ slots : List Int, circular_slot_ids [3, 64, 2050] [7] 64 true = .ok slots ∧
    (circular_slot_ids [3, 64, 2050] [7] 64 false = .ok slots ↔ count_overruns [3, 64, 2050] 64 ([7] : List Int).length = .ok 0) ∧
    (∀ slots', circular_slot_ids [3, 64, 2050] [7] 64 false = .ok slots' → slots' = slots) ∧
    slots.map (·.fmod 64) = ([3, 64, 2050] : List Int).map (·.fmod 64) ∧ ∀ slot ∈ slots, slot.fdiv 64 ∈ ([7] : List Int) :=
  clamp_exact (by decide) (by decide) (by decide)

end

end AiroAgent.KpoolTail
