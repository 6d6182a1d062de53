import Mathlib.Data.List.Basic

/-!
# Lists of what was found

Listings without duplicates, and listings whose entries are all read or none.
-/

namespace Listing

variable {α β : Type*}

theorem filter_eraseDups [BEq α] [LawfulBEq α] (p : α → Bool) : ∀ l : List α,
    (l.filter p).eraseDups = l.eraseDups.filter p
  | [] => rfl
  | a :: l => by
    have hlt : (l.filter fun b => !b == a).length < (a :: l).length := by
      have := List.length_filter_le (fun b => !b == a) l
      rw [List.length_cons]
      omega
    have ih := filter_eraseDups p (l.filter fun b => !b == a)
    rw [List.eraseDups_cons, List.filter_cons, List.filter_cons]
    by_cases h : p a = true
    · rw [if_pos h, if_pos h, List.eraseDups_cons, ← ih, List.filter_filter, List.filter_filter]
      simp only [Bool.and_comm]
    · rw [if_neg h, if_neg h, ← ih, List.filter_filter]
      -- what `p` keeps is not `a`
      refine congrArg List.eraseDups (List.filter_congr fun b _ => ?_)
      by_cases hb : b = a
      · subst hb
        simp [h]
      · simp [hb]
  termination_by l => l.length
  decreasing_by exact hlt

theorem nodup_eraseDups [BEq α] [LawfulBEq α] : ∀ l : List α, l.eraseDups.Nodup
  | [] => List.nodup_nil
  | a :: l => by
    have ih := nodup_eraseDups (l.filter fun b => !b == a)
    rw [List.eraseDups_cons, List.nodup_cons]
    refine ⟨?_, ih⟩
    rw [List.mem_eraseDups]
    simp
  termination_by l => l.length
  decreasing_by
    have := List.length_filter_le (fun b => !b == a) l
    simp only [List.length_cons]
    omega

theorem mapM_eq_some {f : α → Option β} : ∀ {l : List α} {r : List β},
    l.mapM f = some r ↔ r = l.filterMap f ∧ ∀ a ∈ l, (f a).isSome = true
  | [], r => by
    constructor
    · intro h
      cases h
      exact ⟨rfl, fun a ha => by cases ha⟩
    · intro h
      rw [h.1]
      rfl
  | a :: l, r => by
    cases h : f a with
    | none => simp [List.mapM_cons, h]
    | some b =>
      have ih : ∀ {r : List β}, l.mapM f = some r ↔ r = l.filterMap f ∧ ∀ a ∈ l, (f a).isSome = true := mapM_eq_some
      simp only [List.mapM_cons, h, Option.pure_def, Option.bind_eq_bind, Option.bind_some, Option.bind_eq_some_iff,
        Option.some.injEq, ih, List.filterMap_cons_some h, List.forall_mem_cons, Option.isSome_some, true_and]
      constructor
      · intro hx
        obtain ⟨r', ⟨rfl, hall⟩, rfl⟩ := hx
        exact ⟨rfl, hall⟩
      · intro hx
        exact ⟨_, ⟨rfl, hx.2⟩, hx.1.symm⟩

theorem mapM_congr {f g : α → Option β} : ∀ {l : List α}, (∀ a ∈ l, f a = g a) → l.mapM f = l.mapM g
  | [], _ => rfl
  | a :: l, h => by
    rw [List.forall_mem_cons] at h
    rw [List.mapM_cons, List.mapM_cons, h.1, mapM_congr h.2]

theorem mapM_getD {f : α → Option β} {l : List α} :
    (l.mapM f).getD [] = if ∀ a ∈ l, (f a).isSome = true then l.filterMap f else [] := by
  by_cases h : ∀ a ∈ l, (f a).isSome = true
  · rw [if_pos h, mapM_eq_some.mpr ⟨rfl, h⟩]
    rfl
  · rw [if_neg h]
    cases hr : l.mapM f with
    | none => rfl
    | some r => exact absurd (mapM_eq_some.mp hr).2 h

theorem find?_congr {p q : α → Bool} : ∀ {l : List α}, (∀ a ∈ l, p a = q a) → l.find? p = l.find? q
  | [], _ => rfl
  | a :: l, h => by
    rw [List.forall_mem_cons] at h
    rw [List.find?_cons, List.find?_cons, h.1, find?_congr h.2]

theorem map_of_mapM {γ : Type*} {f : α → Option β} {g : β → γ} {k : α → γ} : ∀ {l : List α} {r : List β},
    l.mapM f = some r → (∀ a ∈ l, ∀ b, f a = some b → g b = k a) → r.map g = l.map k
  | [], r, h, _ => by
    cases h
    rfl
  | a :: l, r, h, hk => by
    simp only [List.mapM_cons, Option.pure_def, Option.bind_eq_bind, Option.bind_eq_some_iff, Option.some.injEq] at h
    obtain ⟨b, hb, r', hr, rfl⟩ := h
    rw [List.forall_mem_cons] at hk
    rw [List.map_cons, List.map_cons, hk.1 b hb, map_of_mapM hr hk.2]

theorem find?_key [DecidableEq β] {key : α → β} : ∀ {l : List α}, (l.map key).Nodup → ∀ a ∈ l,
    l.find? (fun b => key b == key a) = some a
  | [], _, a, ha => by cases ha
  | b :: l, hn, a, ha => by
    rw [List.map_cons, List.nodup_cons] at hn
    by_cases h : key b = key a
    · rcases List.mem_cons.mp ha with rfl | ha
      · simp
      · exact absurd (List.mem_map.mpr ⟨a, ha, h.symm⟩) hn.1
    · rw [List.find?_cons_of_neg (by simpa using h)]
      apply find?_key hn.2
      exact (List.mem_cons.mp ha).resolve_left fun e => h (e ▸ rfl)

theorem filter_key [DecidableEq β] {key : α → β} : ∀ {l : List α}, (l.map key).Nodup → ∀ a ∈ l,
    l.filter (fun b => key b == key a) = [a]
  | [], _, a, ha => by cases ha
  | b :: l, hn, a, ha => by
    rw [List.map_cons, List.nodup_cons] at hn
    rcases List.mem_cons.mp ha with rfl | ha
    · have hrest : l.filter (fun b => key b == key a) = [] := by
        apply List.filter_eq_nil_iff.mpr
        intro b hb hk
        exact hn.1 (List.mem_map.mpr ⟨b, hb, by simpa using hk⟩)
      rw [List.filter_cons_of_pos (by simp), hrest]
    · have hne : key b ≠ key a := fun h => hn.1 (List.mem_map.mpr ⟨a, ha, h.symm⟩)
      rw [List.filter_cons_of_neg (by simpa using hne)]
      exact filter_key hn.2 a ha

/-! ## Sorting by a key -/

section
variable {key : α → Nat}

theorem key_trans (a b c : α) (hab : decide (key a ≤ key b) = true) (hbc : decide (key b ≤ key c) = true) :
    decide (key a ≤ key c) = true :=
  decide_eq_true (Nat.le_trans (of_decide_eq_true hab) (of_decide_eq_true hbc))

theorem key_total (a b : α) : (decide (key a ≤ key b) || decide (key b ≤ key a)) = true := by
  simp only [Bool.or_eq_true, decide_eq_true_eq]
  omega

theorem pairwise_key (l : List α) : (l.mergeSort fun a b => key a ≤ key b).Pairwise fun a b => key a ≤ key b :=
  (List.pairwise_mergeSort key_trans key_total l).imp of_decide_eq_true

/-- Entries with one key keep their order. -/
theorem filter_key_mergeSort (l : List α) (n : Nat) :
    (l.mergeSort fun a b => key a ≤ key b).filter (key · = n) = l.filter (key · = n) := by
  -- they are sorted already, so the sort has them as they are
  have hsame : (l.filter (key · = n)).Pairwise fun a b => decide (key a ≤ key b) = true := by
    apply List.pairwise_of_forall_mem_list
    intro a ha b hb
    have ha' := of_decide_eq_true (List.mem_filter.mp ha).2
    have hb' := of_decide_eq_true (List.mem_filter.mp hb).2
    exact decide_eq_true (by omega)
  have hsub := (List.sublist_mergeSort key_trans key_total hsame List.filter_sublist).filter (key · = n)
  have htwice : (l.filter (key · = n)).filter (key · = n) = l.filter (key · = n) := by
    apply List.filter_eq_self.mpr
    intro a ha
    exact (List.mem_filter.mp ha).2
  rw [htwice] at hsub
  exact (hsub.eq_of_length ((List.mergeSort_perm l _).filter _).length_eq.symm).symm

end

end Listing
