import AiroAgent.Lib.Stops

/-!
# Lines that are looked for

Occurrences of a text are counted, and the first one is replaced. Where what is
looked for is the end of a line, with the `c` that ends it, that is a matter of
the lines.
-/

namespace Lines

open Stops

variable {α : Type}

section
variable [DecidableEq α]

theorem find_drop_lt {s text : List α} {n : Nat} (hs : s ≠ []) (h : find s text = some n) :
    (text.drop (n + s.length)).length < text.length := by
  obtain ⟨a, rest, rfl, hlen, _⟩ := find_some h
  have hpos := List.length_pos_iff.mpr hs
  simp only [List.length_drop, List.length_append]
  omega

/-- Occurrences that do not overlap, from the left. -/
def count (s text : List α) : Nat :=
  if hs : s = [] then text.length + 1
  else
    match _h : find s text with
    | none => 0
    | some n => count s (text.drop (n + s.length)) + 1
termination_by text.length
decreasing_by exact find_drop_lt hs _h

theorem count_none {s text : List α} (hs : s ≠ []) (h : find s text = none) : count s text = 0 := by
  rw [count, dif_neg hs]
  split
  · rfl
  · rename_i n hn
    rw [h] at hn
    cases hn

theorem count_some {s text : List α} {n : Nat} (hs : s ≠ []) (h : find s text = some n) :
    count s text = count s (text.drop (n + s.length)) + 1 := by
  rw [count, dif_neg hs]
  split
  · rename_i hn
    rw [h] at hn
    cases hn
  · rename_i m hm
    rw [h, Option.some.injEq] at hm
    rw [hm]

def replace_once (old new text : List α) : List α :=
  match find old text with
  | none => text
  | some n => text.take n ++ (new ++ text.drop (n + old.length))

end

/-- Lines with their ends, and what stands behind the last end. -/
def unlines (c : α) : List (List α) → List α → List α
  | [], rest => rest
  | l :: ls, rest => l ++ c :: unlines c ls rest

section
variable {c : α} {p q l rest new : List α} {ls ls' : List (List α)} {n : Nat}

theorem exists_unlines [DecidableEq α] (c : α) : ∀ text : List α, ∃ ls rest, text = unlines c ls rest ∧ (∀ l ∈ ls, c ∉ l) ∧ c ∉ rest
  | [] => ⟨[], [], rfl, by simp, by simp⟩
  | a :: text => by
    obtain ⟨ls, rest, rfl, hls, hrest⟩ := exists_unlines c text
    by_cases hac : a = c
    · subst hac
      exact ⟨[] :: ls, rest, rfl, by simpa using hls, hrest⟩
    · cases ls with
      | nil => exact ⟨[], a :: rest, rfl, by simp, by simp [hrest, Ne.symm hac]⟩
      | cons l ls =>
        rw [List.forall_mem_cons] at hls
        refine ⟨(a :: l) :: ls, rest, rfl, ?_, hrest⟩
        rw [List.forall_mem_cons]
        exact ⟨by simp [hls.1, Ne.symm hac], hls.2⟩

theorem prefix_line (hp : c ∉ p) (hl : c ∉ l) : p ++ [c] <+: l ++ c :: rest ↔ p = l := by
  constructor
  · intro h
    induction p generalizing l with
    | nil =>
      cases l with
      | nil => rfl
      | cons a l =>
        rw [List.nil_append, List.cons_append, List.cons_prefix_cons] at h
        rw [h.1] at hl
        exact absurd List.mem_cons_self hl
    | cons b p ih =>
      cases l with
      | nil =>
        rw [List.nil_append, List.cons_append, List.cons_prefix_cons] at h
        rw [h.1] at hp
        exact absurd List.mem_cons_self hp
      | cons a l =>
        rw [List.cons_append, List.cons_append, List.cons_prefix_cons] at h
        rw [h.1, ih (List.not_mem_of_not_mem_cons hp) (List.not_mem_of_not_mem_cons hl) h.2]
  · rintro rfl
    exact ⟨rest, by simp⟩

theorem drop_line : (l ++ c :: rest).drop (n + (l.length + 1)) = rest.drop n := by
  have hsplit : l ++ c :: rest = (l ++ [c]) ++ rest := by simp
  have hlen : n + (l.length + 1) = (l ++ [c]).length + n := by
    rw [List.length_append, List.length_singleton, Nat.add_comm]
  rw [hsplit, hlen, ← List.drop_drop, List.drop_left]

variable [DecidableEq α]

theorem find_rest (hrest : c ∉ rest) : find (p ++ [c]) rest = none := by
  rw [find_none (by simp)]
  intro hin
  exact hrest (hin.subset (by simp))

theorem find_line (hp : c ∉ p) (hl : c ∉ l) : find (p ++ [c]) (l ++ c :: rest) =
    if p <:+ l then some (l.length - p.length) else (find (p ++ [c]) rest).map (· + (l.length + 1)) := by
  induction l with
  | nil =>
    rw [List.nil_append, find]
    have hpre : (p ++ [c]).isPrefixOf (c :: rest) = true ↔ p = [] := by
      rw [List.isPrefixOf_iff_prefix]
      exact prefix_line (l := []) hp List.not_mem_nil
    by_cases hnil : p = []
    · rw [if_pos (hpre.mpr hnil), if_pos (by simp [hnil]), List.length_nil, Nat.zero_sub]
    · rw [if_neg (fun h => hnil (hpre.mp h)), if_neg (by simpa using hnil)]
      rfl
  | cons a l ih =>
    have hpre : (p ++ [c]).isPrefixOf (a :: (l ++ c :: rest)) = true ↔ p = a :: l := by
      rw [List.isPrefixOf_iff_prefix]
      exact prefix_line (l := a :: l) hp hl
    rw [List.cons_append, find]
    by_cases hpl : p = a :: l
    · rw [if_pos (hpre.mpr hpl), if_pos (hpl ▸ List.suffix_refl _), hpl, Nat.sub_self]
    · rw [if_neg (fun h => hpl (hpre.mp h)), ih (List.not_mem_of_not_mem_cons hl)]
      by_cases hsuf : p <:+ l
      · have hlen := hsuf.length_le
        rw [if_pos hsuf, if_pos (List.suffix_cons_iff.mpr (.inr hsuf)), Option.map_some, List.length_cons]
        congr 1
        omega
      · have hnot : ¬ p <:+ a :: l := fun h => (List.suffix_cons_iff.mp h).elim hpl hsuf
        rw [if_neg hsuf, if_neg hnot, Option.map_map]
        congr 1

theorem count_rest (hrest : c ∉ rest) : count (p ++ [c]) rest = 0 := count_none (by simp) (find_rest hrest)

theorem find_line_pos (hp : c ∉ p) (hl : c ∉ l ++ p) : find (p ++ [c]) (l ++ p ++ c :: rest) = some l.length := by
  rw [find_line hp hl, if_pos (List.suffix_append l p), List.length_append, Nat.add_sub_cancel]

theorem find_line_neg (hp : c ∉ p) (hl : c ∉ l) (h : ¬ p <:+ l) :
    find (p ++ [c]) (l ++ c :: rest) = (find (p ++ [c]) rest).map (· + (l.length + 1)) := by
  rw [find_line hp hl, if_neg h]

theorem count_line (hp : c ∉ p) (hl : c ∉ l) : count (p ++ [c]) (l ++ c :: rest) =
    (if p <:+ l then 1 else 0) + count (p ++ [c]) rest := by
  have hne : p ++ [c] ≠ [] := by simp
  by_cases h : p <:+ l
  · obtain ⟨l, rfl⟩ := h
    have hlen : l.length + (p ++ [c]).length = 0 + ((l ++ p).length + 1) := by
      simp only [List.length_append, List.length_singleton]
      omega
    rw [if_pos (List.suffix_append l p), count_some hne (find_line_pos hp hl), hlen, drop_line, List.drop_zero, Nat.add_comm]
  · rw [if_neg h, Nat.zero_add]
    have hfind : find (p ++ [c]) (l ++ c :: rest) = (find (p ++ [c]) rest).map (· + (l.length + 1)) := find_line_neg hp hl h
    cases hf : find (p ++ [c]) rest with
    | none =>
      rw [hf] at hfind
      rw [count_none hne hfind, count_none hne hf]
    | some n =>
      rw [hf] at hfind
      have hlen : n + (l.length + 1) + (p ++ [c]).length = n + (p ++ [c]).length + (l.length + 1) := by omega
      rw [count_some hne hfind, count_some hne hf, hlen, drop_line]

theorem count_unlines (hp : c ∉ p) (hls : ∀ l ∈ ls, c ∉ l) (hrest : c ∉ rest) :
    count (p ++ [c]) (unlines c ls rest) = ls.countP (p <:+ ·) := by
  induction ls with
  | nil => exact count_rest hrest
  | cons l ls ih =>
    rw [List.forall_mem_cons] at hls
    rw [unlines, count_line hp hls.1, ih hls.2, List.countP_cons]
    by_cases h : p <:+ l <;> simp [h, Nat.add_comm]

theorem replace_line_neg (hp : c ∉ p) (hl : c ∉ l) (h : ¬ p <:+ l) :
    replace_once (p ++ [c]) new (l ++ c :: rest) = l ++ c :: replace_once (p ++ [c]) new rest := by
  unfold replace_once
  rw [find_line_neg hp hl h]
  cases find (p ++ [c]) rest with
  | none => rfl
  | some n =>
    have hlen : n + (l.length + 1) + (p ++ [c]).length = n + (p ++ [c]).length + (l.length + 1) := by omega
    have htake : (l ++ c :: rest).take (n + (l.length + 1)) = l ++ c :: rest.take n := by
      rw [List.take_append, List.take_of_length_le (by omega)]
      have hsub : n + (l.length + 1) - l.length = n + 1 := by omega
      rw [hsub, List.take_succ_cons]
    simp only [Option.map_some]
    rw [hlen, drop_line, htake]
    simp

/-- The first line that ends in `p` then ends in `q`. -/
theorem replace_unlines (hp : c ∉ p) (hls : ∀ l ∈ ls, c ∉ l ∧ ¬ p <:+ l) (hl : c ∉ l) :
    replace_once (p ++ [c]) (q ++ [c]) (unlines c (ls ++ (l ++ p) :: ls') rest) = unlines c (ls ++ (l ++ q) :: ls') rest := by
  induction ls with
  | nil =>
    have hlp : c ∉ l ++ p := by simp [hl, hp]
    have hlen : l.length + (p ++ [c]).length = 0 + ((l ++ p).length + 1) := by
      simp only [List.length_append, List.length_singleton]
      omega
    show replace_once (p ++ [c]) (q ++ [c]) (l ++ p ++ c :: unlines c ls' rest) = l ++ q ++ c :: unlines c ls' rest
    unfold replace_once
    rw [find_line_pos hp hlp]
    simp only
    rw [hlen, drop_line, List.append_assoc, List.take_left]
    simp
  | cons l' ls ih =>
    rw [List.forall_mem_cons] at hls
    rw [List.cons_append, unlines, replace_line_neg hp hls.1.1 hls.1.2, ih hls.2]
    rfl

end

end Lines
