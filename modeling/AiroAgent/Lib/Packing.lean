import Mathlib.Data.List.Infix
import Mathlib.Order.Basic

/-!
# Packing in order

Items are put into groups in their order, each group as long as its load is
allowed; an item that is too much on its own has a group to itself. Intervals of
one width cover a range in the same way.
-/

namespace Packing

section
variable {α β : Type} (add : β → α → β) (zero : β) (fits : β → Bool)

def fill : β → List α → List α × List α
  | _, [] => ([], [])
  | load, x :: xs =>
    if fits (add load x) then
      let r := fill (add load x) xs
      (x :: r.1, r.2)
    else ([], x :: xs)

theorem fill_append : ∀ (load : β) (xs : List α), (fill add fits load xs).1 ++ (fill add fits load xs).2 = xs
  | _, [] => rfl
  | load, x :: xs => by
    rw [fill]
    split
    · simp only [List.cons_append, fill_append (add load x) xs]
    · rfl

theorem fill_length (load : β) (xs : List α) : (fill add fits load xs).2.length ≤ xs.length := by
  have happend := congrArg List.length (fill_append add fits load xs)
  rw [List.length_append] at happend
  omega

theorem fill_fits : ∀ (load : β) (xs : List α), (fill add fits load xs).1 ≠ [] →
    fits ((fill add fits load xs).1.foldl add load) = true
  | _, [], hne => absurd rfl hne
  | load, x :: xs, hne => by
    rw [fill] at hne ⊢
    by_cases hx : fits (add load x) = true
    · simp only [hx, if_true, List.foldl_cons]
      by_cases hnil : (fill add fits (add load x) xs).1 = []
      · rw [hnil]
        exact hx
      · exact fill_fits (add load x) xs hnil
    · simp [hx] at hne

def pack : List α → List (List α)
  | [] => []
  | x :: xs =>
    if fits (add zero x) then
      (x :: (fill add fits (add zero x) xs).1) :: pack (fill add fits (add zero x) xs).2
    else [x] :: pack xs
termination_by l => l.length
decreasing_by
  · exact Nat.lt_succ_of_le (fill_length add fits _ xs)
  · exact Nat.lt_succ_self _

theorem flatten_pack (l : List α) : (pack add zero fits l).flatten = l := by
  fun_induction pack add zero fits l with
  | case1 => rfl
  | case2 x xs hx ih =>
    rw [List.flatten_cons, ih, List.cons_append, fill_append]
  | case3 x xs hx ih => rw [List.flatten_cons, ih, List.singleton_append]

theorem fits_of_mem_pack {l group : List α} (hg : group ∈ pack add zero fits l) :
    fits (group.foldl add zero) = true ∨ ∃ x, group = [x] := by
  fun_induction pack add zero fits l with
  | case1 => cases hg
  | case2 x xs hx ih =>
    rcases List.mem_cons.mp hg with rfl | hg
    · left
      rw [List.foldl_cons]
      by_cases hnil : (fill add fits (add zero x) xs).1 = []
      · rw [hnil]
        exact hx
      · exact fill_fits add fits (add zero x) xs hnil
    · exact ih hg
  | case3 x xs hx ih =>
    rcases List.mem_cons.mp hg with rfl | hg
    · exact .inr ⟨x, rfl⟩
    · exact ih hg

end

section
variable {α β : Type} {add : β → α → β} {zero : β} {fits fits' : β → Bool}

theorem fill_congr : ∀ (load : β) (xs : List α),
    (∀ group, group ≠ [] → group <+: xs → fits (group.foldl add load) = fits' (group.foldl add load)) →
    fill add fits load xs = fill add fits' load xs
  | _, [], _ => rfl
  | load, x :: xs, h => by
    have hx : fits (add load x) = fits' (add load x) := h [x] (by simp) (by simp)
    have hxs : fill add fits (add load x) xs = fill add fits' (add load x) xs := by
      apply fill_congr
      intro group _ hg
      exact h (x :: group) (by simp) (List.cons_prefix_cons.mpr ⟨rfl, hg⟩)
    rw [fill, fill, hx, hxs]

/-- Only what stands together in the list is ever asked for. -/
theorem pack_congr {l : List α} (h : ∀ group, group ≠ [] → group <:+: l → fits (group.foldl add zero) = fits' (group.foldl add zero)) :
    pack add zero fits l = pack add zero fits' l := by
  fun_induction pack add zero fits l with
  | case1 => rw [pack]
  | case2 x xs hx ih =>
    have hx' : fits (add zero x) = fits' (add zero x) := h [x] (by simp) (List.prefix_append [x] xs).isInfix
    rw [hx] at hx'
    have hfill : fill add fits (add zero x) xs = fill add fits' (add zero x) xs := by
      apply fill_congr
      intro group _ hg
      exact h (x :: group) (by simp) (List.cons_prefix_cons.mpr ⟨rfl, hg⟩).isInfix
    have hrest : (fill add fits (add zero x) xs).2 <:+ x :: xs := by
      have happend := fill_append add fits (add zero x) xs
      exact ⟨x :: (fill add fits (add zero x) xs).1, by rw [List.cons_append, happend]⟩
    rw [pack, if_pos hx'.symm, ← hfill, ih fun group hne hg => h group hne (hg.trans hrest.isInfix)]
  | case3 x xs hx ih =>
    have hx' : fits (add zero x) = fits' (add zero x) := h [x] (by simp) (List.prefix_append [x] xs).isInfix
    rw [hx'] at hx
    rw [pack, if_neg hx, ih fun group hne hg => h group hne (hg.trans (List.suffix_cons x xs).isInfix)]

end

/-! ## Intervals -/

/-- One interval after the other, from `a` to `b`. -/
def Tiles : Nat → List (Nat × Nat) → Nat → Prop
  | a, [], b => a = b
  | a, t :: ts, b => t.1 = a ∧ a < t.2 ∧ Tiles t.2 ts b

/-- `range(a, b, width)`, each start with the next one, or with the end. -/
def steps (width a b : Nat) : List (Nat × Nat) :=
  if a < b ∧ 0 < width then (a, a + min width (b - a)) :: steps width (a + width) b else []
termination_by b - a

section
variable {a b x width : Nat} {ts : List (Nat × Nat)} {t : Nat × Nat}

theorem tiles_steps (hw : 0 < width) (hab : a ≤ b) : Tiles a (steps width a b) b := by
  fun_induction steps width a b with
  | case1 a h ih =>
    refine ⟨rfl, by omega, ?_⟩
    by_cases hlast : a + width ≤ b
    · have hmin : min width (b - a) = width := by omega
      rw [hmin]
      exact ih hlast
    · have hnil : steps width (a + width) b = [] := by
        rw [steps, if_neg (by omega)]
      rw [hnil]
      show a + min width (b - a) = b
      omega
  | case2 a h => exact Nat.le_antisymm hab (by omega)

theorem mem_steps (ht : t ∈ steps width a b) : t.2 - t.1 ≤ width := by
  fun_induction steps width a b with
  | case1 a h ih =>
    rcases List.mem_cons.mp ht with rfl | ht
    · show a + min width (b - a) - a ≤ width
      omega
    · exact ih ht
  | case2 a h => cases ht

theorem Tiles.le (h : Tiles a ts b) : a ≤ b := by
  induction ts generalizing a with
  | nil => exact le_of_eq h
  | cons t ts ih =>
    obtain ⟨_, hlt, hts⟩ := h
    exact hlt.le.trans (ih hts)

theorem Tiles.bounds (h : Tiles a ts b) (ht : t ∈ ts) : a ≤ t.1 ∧ t.1 < t.2 ∧ t.2 ≤ b := by
  induction ts generalizing a with
  | nil => cases ht
  | cons t' ts ih =>
    obtain ⟨rfl, hlt, hts⟩ := h
    rcases List.mem_cons.mp ht with rfl | ht
    · exact ⟨le_refl _, hlt, hts.le⟩
    · obtain ⟨hle, hrest⟩ := ih hts ht
      exact ⟨hlt.le.trans hle, hrest⟩

/-- Each point is in one of them, once. -/
theorem Tiles.once (h : Tiles a ts b) (hx : a ≤ x ∧ x < b) : (ts.filter fun t => t.1 ≤ x ∧ x < t.2).length = 1 := by
  induction ts generalizing a with
  | nil =>
    have hab : a = b := h
    omega
  | cons t ts ih =>
    obtain ⟨rfl, hlt, hts⟩ := h
    by_cases hxt : x < t.2
    · have hrest : ts.filter (fun t => t.1 ≤ x ∧ x < t.2) = [] := by
        rw [List.filter_eq_nil_iff]
        intro t' ht'
        have hle := (hts.bounds ht').1
        simp only [decide_eq_true_eq, not_and, not_lt]
        omega
      rw [List.filter_cons_of_pos (by simp [hx.1, hxt]), hrest]
      rfl
    · rw [List.filter_cons_of_neg (by simp [hxt])]
      exact ih hts ⟨not_lt.mp hxt, hx.2⟩

end

end Packing
