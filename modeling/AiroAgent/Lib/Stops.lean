import Mathlib.Data.List.Infix

/-!
# Reading up to a stop

The first place a word occurs at, the text before the first of several stops,
and a shortest match. A written text is read back when the stops cannot occur
earlier: not in what is written before them, and not across its end.
-/

namespace Stops

variable {α β : Type*}

section
variable [DecidableEq α]

def find (s : List α) : List α → Option Nat
  | [] => if s = [] then some 0 else none
  | a :: l => if s.isPrefixOf (a :: l) then some 0 else (find s l).map (· + 1)

/-- Of two stops at one place the one listed first is kept. -/
def nearer (text : List α) (best : Nat × Option (List α)) (s : List α) : Nat × Option (List α) :=
  match find s text with
  | some pos => if pos < best.1 then (pos, some s) else best
  | none => best

/-- The text before the stop, the stop, and the text behind it. -/
def read_until_stop (text : List α) (stop : List (List α)) : List α × Option (List α) × List α :=
  match stop.foldl (nearer text) (text.length, none) with
  | (min_pos, some s) => (text.take min_pos, some s, text.drop (min_pos + s.length))
  | (_, none) => (text, none, [])

/-! ## Words that cannot meet -/

def mismatch (a b : List α) : Bool := !a.isPrefixOf b && !b.isPrefixOf a

/-- No occurrence of `s` reaches from before `b` into it. -/
def apart (s b : List α) : Bool := (List.range s.length).all fun k => k == 0 || mismatch (s.drop k) b

def separated (stops : List (List α)) : Bool :=
  stops.all fun s => s != [] && stops.all fun t => apart t s && (t == s || mismatch t s)

variable {s t b c l rest text : List α} {stops : List (List α)} {n : Nat}

theorem not_prefix_append (h : mismatch s b = true) : ¬ s <+: b ++ rest := by
  intro hp
  simp only [mismatch, Bool.and_eq_true, Bool.not_eq_true', Bool.eq_false_iff, ne_eq, List.isPrefixOf_iff_prefix] at h
  rcases List.prefix_or_prefix_of_prefix hp (List.prefix_append b rest) with hx | hx
  · exact h.1 hx
  · exact h.2 hx

theorem apart_drop (h : apart s b = true) (h0 : 0 < n) (hn : n < s.length) : ¬ s.drop n <+: b ++ rest := by
  have hk := List.all_eq_true.mp h n (List.mem_range.mpr hn)
  simp only [Bool.or_eq_true, beq_iff_eq] at hk
  exact not_prefix_append (hk.resolve_left (by omega))

theorem separated_spec (h : separated stops = true) (hs : s ∈ stops) (ht : t ∈ stops) :
    s ≠ [] ∧ apart t s = true ∧ (t ≠ s → mismatch t s = true) := by
  have hx := List.all_eq_true.mp h s hs
  simp only [Bool.and_eq_true, bne_iff_ne, ne_eq] at hx
  have hy := List.all_eq_true.mp hx.2 t ht
  simp only [Bool.and_eq_true, Bool.or_eq_true, beq_iff_eq] at hy
  exact ⟨hx.1, hy.1, hy.2.resolve_left⟩

/-! ## The first occurrence -/

theorem find_none (hs : s ≠ []) : find s l = none ↔ ¬ s <:+: l := by
  induction l with
  | nil => simp [find, hs]
  | cons a l ih =>
    rw [find, List.infix_cons_iff]
    by_cases hp : s.isPrefixOf (a :: l) = true
    · simp [hp, List.isPrefixOf_iff_prefix.mp hp]
    · rw [if_neg hp, Option.map_eq_none_iff, ih]
      rw [List.isPrefixOf_iff_prefix] at hp
      simp [hp]

theorem find_some (h : find s l = some n) : ∃ c rest, l = c ++ (s ++ rest) ∧ c.length = n ∧ (s ≠ [] → ¬ s <:+: c) := by
  induction l generalizing n with
  | nil =>
    rw [find] at h
    split at h
    · rename_i hs
      cases h
      exact ⟨[], [], by simp [hs], rfl, fun hne => absurd hs hne⟩
    · cases h
  | cons a l ih =>
    rw [find] at h
    split at h
    · rename_i hp
      cases h
      obtain ⟨rest, hrest⟩ := List.isPrefixOf_iff_prefix.mp hp
      exact ⟨[], rest, hrest.symm, rfl, by simp⟩
    · rename_i hp
      obtain ⟨m, hm, rfl⟩ := Option.map_eq_some_iff.mp h
      obtain ⟨c, rest, rfl, rfl, hfree⟩ := ih hm
      refine ⟨a :: c, rest, rfl, rfl, ?_⟩
      intro hne hin
      rcases List.infix_cons_iff.mp hin with hpre | hin
      · rw [List.isPrefixOf_iff_prefix] at hp
        exact hp (hpre.trans (List.prefix_append (a :: c) (s ++ rest)))
      · exact hfree hne hin

theorem find_lt (ht : t ≠ []) (h : t <:+: c) : ∃ p, find t (c ++ l) = some p ∧ p < c.length := by
  induction c with
  | nil => exact absurd (List.eq_nil_of_infix_nil h) ht
  | cons a c ih =>
    rw [List.cons_append, find]
    by_cases hp : t.isPrefixOf (a :: (c ++ l)) = true
    · exact ⟨0, by rw [if_pos hp], by simp⟩
    · rw [if_neg hp]
      rw [List.isPrefixOf_iff_prefix] at hp
      rcases List.infix_cons_iff.mp h with hpre | hin
      · exact absurd (hpre.trans (List.prefix_append (a :: c) l)) hp
      · obtain ⟨p, hf, hlt⟩ := ih hin
        exact ⟨p + 1, by rw [hf, Option.map_some], by simpa using hlt⟩

theorem not_prefix_of_apart (hc : ¬ s <:+: c) (hne : c ≠ []) (hb : apart s b = true) : ¬ s <+: c ++ (b ++ rest) := by
  intro hp
  rcases Nat.lt_or_ge c.length s.length with hlt | hge
  · -- the occurrence ends behind `c`
    have hdrop : s.drop c.length <+: b ++ rest := by
      have := hp.drop c.length
      rwa [List.drop_left] at this
    exact apart_drop hb (List.length_pos_iff.mpr hne) hlt hdrop
  · exact hc (List.prefix_of_prefix_length_le hp (List.prefix_append _ _) hge).isInfix

theorem find_append (hc : ¬ s <:+: c) (hb : apart s b = true) :
    find s (c ++ (b ++ rest)) = (find s (b ++ rest)).map (· + c.length) := by
  induction c with
  | nil => simp
  | cons a c ih =>
    have hp : ¬ s.isPrefixOf (a :: (c ++ (b ++ rest))) = true := by
      rw [List.isPrefixOf_iff_prefix, ← List.cons_append]
      exact not_prefix_of_apart hc (by simp) hb
    rw [List.cons_append, find, if_neg hp, ih fun h => hc (List.infix_cons h), Option.map_map]
    rfl

theorem find_self : find s (s ++ rest) = some 0 := by
  cases s with
  | nil => cases rest <;> simp [find]
  | cons a s =>
    rw [List.cons_append, find, if_pos]
    exact List.isPrefixOf_iff_prefix.mpr ⟨rest, rfl⟩

theorem find_le : ∃ n ≤ c.length, find s (c ++ (s ++ rest)) = some n := by
  induction c with
  | nil => exact ⟨0, le_refl _, find_self⟩
  | cons a c ih =>
    obtain ⟨n, hle, hf⟩ := ih
    rw [List.cons_append, find]
    by_cases hp : s.isPrefixOf (a :: (c ++ (s ++ rest))) = true
    · exact ⟨0, Nat.zero_le _, by rw [if_pos hp]⟩
    · exact ⟨n + 1, Nat.succ_le_succ hle, by rw [if_neg hp, hf, Option.map_some]⟩

/-- `str.find` with a start. -/
def find_from (s text : List α) (start : Nat) : Option Nat := (find s (text.drop start)).map (· + start)

theorem find_append_left (hs : s ≠ []) (h : find s c = some n) : find s (c ++ l) = some n := by
  induction c generalizing n with
  | nil =>
    rw [find, if_neg hs] at h
    cases h
  | cons a c ih =>
    rw [find] at h
    rw [List.cons_append, find]
    by_cases hp : s.isPrefixOf (a :: c) = true
    · have hp' : s.isPrefixOf (a :: (c ++ l)) = true := by
        rw [List.isPrefixOf_iff_prefix] at hp ⊢
        exact hp.trans (List.prefix_append (a :: c) l)
      rw [if_pos hp] at h
      rw [if_pos hp', h]
    · rw [if_neg hp] at h
      obtain ⟨m, hm, rfl⟩ := Option.map_eq_some_iff.mp h
      have hp' : ¬ s.isPrefixOf (a :: (c ++ l)) = true := by
        -- an occurrence at the start would end before the one that is there
        obtain ⟨c', rest, rfl, _, _⟩ := find_some hm
        rw [List.isPrefixOf_iff_prefix] at hp ⊢
        intro hpre
        apply hp
        apply List.prefix_of_prefix_length_le hpre (List.prefix_append (a :: (c' ++ (s ++ rest))) l)
        simp only [List.length_cons, List.length_append]
        omega
      rw [if_neg hp', ih hm, Option.map_some]

/-- Where no occurrence begins earlier, a search may begin later. -/
theorem find_drop (h : ∀ i < n, ¬ s <+: text.drop i) (hn : n ≤ text.length) : find_from s text n = find s text := by
  unfold find_from
  induction n generalizing text with
  | zero => simp
  | succ n ih =>
    cases text with
    | nil => cases hn
    | cons a text =>
      have hp : ¬ s.isPrefixOf (a :: text) = true := by
        rw [List.isPrefixOf_iff_prefix]
        exact h 0 (Nat.succ_pos n)
      have hrest : ∀ i < n, ¬ s <+: text.drop i := fun i hi => h (i + 1) (Nat.succ_lt_succ hi)
      rw [find, if_neg hp, ← ih hrest (Nat.le_of_succ_le_succ hn), List.drop_succ_cons, Option.map_map]
      congr 1

theorem find_from_le {start : Nat} (h : find_from s text start = some n) : ∃ m ≤ n, find s text = some m := by
  obtain ⟨m, hm, rfl⟩ := Option.map_eq_some_iff.mp h
  obtain ⟨c, rest, hsplit, rfl, _⟩ := find_some hm
  have htext : text = (text.take start ++ c) ++ (s ++ rest) := by
    rw [List.append_assoc, ← hsplit, List.take_append_drop]
  obtain ⟨m, hle, hf⟩ := @find_le _ _ s (text.take start ++ c) rest
  have hlen := List.length_take_le start text
  rw [List.length_append] at hle
  exact ⟨m, by omega, by rw [htext, hf]⟩

/-- After a text without an occurrence, it is enough to look at its end. -/
theorem find_from_window (hc : ¬ s <:+: c) : find_from s (c ++ l) (c.length - (s.length - 1)) = find s (c ++ l) := by
  apply find_drop
  · intro i hi hpre
    -- it would end within `c`
    have hle : s.length ≤ (c.drop i).length := by
      rw [List.length_drop]
      omega
    rw [List.drop_append_of_le_length (by omega)] at hpre
    have hin := List.prefix_of_prefix_length_le hpre (List.prefix_append (c.drop i) l) hle
    exact hc (hin.isInfix.trans (List.drop_suffix i c).isInfix)
  · rw [List.length_append]
    omega

/-! ## The first stop -/

theorem foldl_nearer_of_first : ∀ {stops : List (List α)} {best : Nat × Option (List α)},
    (s ∈ stops ∧ n < best.1 ∨ best = (n, some s)) →
    (∀ t ∈ stops, ∀ pos, find t text = some pos → t = s ∧ pos = n ∨ n < pos) → find s text = some n →
    stops.foldl (nearer text) best = (n, some s)
  | [], best, hbest, _, _ => by simpa using hbest
  | t :: stops, best, hbest, hfirst, hs => by
    rw [List.foldl_cons]
    rw [List.forall_mem_cons] at hfirst
    apply foldl_nearer_of_first _ hfirst.2 hs
    unfold nearer
    by_cases hts : t = s
    · subst hts
      rw [hs]
      rcases hbest with ⟨-, hlt⟩ | rfl
      · simp [hlt]
      · simp
    · have hmem : s ∈ stops ∧ n < best.1 ∨ best = (n, some s) := by
        rcases hbest with ⟨hmem, hlt⟩ | hx
        · exact .inl ⟨(List.mem_cons.mp hmem).resolve_left (Ne.symm hts), hlt⟩
        · exact .inr hx
      cases hf : find t text with
      | none => exact hmem
      | some pos =>
        have hpos : n < pos := (hfirst.1 pos hf).resolve_left fun h => hts h.1
        by_cases hlt : pos < best.1
        · simp only [hlt, if_true]
          rcases hmem with ⟨hmem, -⟩ | rfl
          · exact .inl ⟨hmem, hpos⟩
          · exact absurd hlt (by simp only; omega)
        · simp only [hlt, if_false]
          exact hmem

/-- **Reading back.** A text without the stops, a stop, and whatever follows. -/
theorem read_append (hsep : separated stops = true) (hs : s ∈ stops) (hfree : ∀ t ∈ stops, ¬ t <:+: c) :
    read_until_stop (c ++ (s ++ rest)) stops = (c, some s, rest) := by
  have hne : s ≠ [] := (separated_spec hsep hs hs).1
  have hfind : find s (c ++ (s ++ rest)) = some c.length := by
    rw [find_append (hfree s hs) (separated_spec hsep hs hs).2.1, find_self]
    simp
  have hfirst : ∀ t ∈ stops, ∀ pos, find t (c ++ (s ++ rest)) = some pos → t = s ∧ pos = c.length ∨ c.length < pos := by
    intro t ht pos hpos
    by_cases hts : t = s
    · subst hts
      rw [hfind] at hpos
      cases hpos
      exact .inl ⟨rfl, rfl⟩
    · obtain ⟨-, hapart, hmis⟩ := separated_spec hsep hs ht
      rw [find_append (hfree t ht) hapart] at hpos
      obtain ⟨m, hm, rfl⟩ := Option.map_eq_some_iff.mp hpos
      obtain ⟨c', rest', heq, rfl, -⟩ := find_some hm
      refine .inr ?_
      cases c' with
      | nil => exact absurd ⟨rest', heq.symm⟩ (not_prefix_append (hmis hts))
      | cons a c' =>
        rw [List.length_cons]
        omega
  have hlt : c.length < (c ++ (s ++ rest)).length := by
    have := List.length_pos_iff.mpr hne
    simp only [List.length_append]
    omega
  have hfold : stops.foldl (nearer (c ++ (s ++ rest))) ((c ++ (s ++ rest)).length, none) = (c.length, some s) :=
    foldl_nearer_of_first (.inl ⟨hs, hlt⟩) hfirst hfind
  rw [read_until_stop, hfold]
  simp only [List.take_left, Prod.mk.injEq, true_and]
  rw [← List.append_assoc, ← List.length_append, List.drop_left]

theorem foldl_nearer_spec : ∀ {stops : List (List α)} {best out : Nat × Option (List α)},
    stops.foldl (nearer text) best = out → out.1 ≤ best.1 ∧
      (∀ t ∈ stops, ∀ pos, find t text = some pos → out.1 ≤ pos) ∧
      (out = best ∨ ∃ s ∈ stops, out.2 = some s ∧ find s text = some out.1)
  | [], best, out, h => by
    cases h
    exact ⟨le_refl _, by simp, .inl rfl⟩
  | t :: stops, best, out, h => by
    rw [List.foldl_cons] at h
    obtain ⟨hle, hmin, hout⟩ := foldl_nearer_spec h
    have hstep : (nearer text best t = best ∧ ∀ pos, find t text = some pos → best.1 ≤ pos) ∨
        ∃ pos, find t text = some pos ∧ nearer text best t = (pos, some t) ∧ pos < best.1 := by
      unfold nearer
      cases hf : find t text with
      | none => simp
      | some pos =>
        by_cases hlt : pos < best.1
        · simp [hlt]
        · simp only [hlt, if_false]
          refine .inl ⟨trivial, ?_⟩
          intro p hp
          cases hp
          omega
    rcases hstep with ⟨heq, hbest⟩ | ⟨pos, hf, heq, hlt⟩
    · rw [heq] at hle hout
      refine ⟨hle, List.forall_mem_cons.mpr ⟨fun p hp => hle.trans (hbest p hp), hmin⟩, ?_⟩
      exact hout.imp id fun ⟨s, hs, hx⟩ => ⟨s, List.mem_cons_of_mem t hs, hx⟩
    · rw [heq] at hle hout
      simp only at hle
      refine ⟨by omega, List.forall_mem_cons.mpr ⟨fun p hp => ?_, hmin⟩, .inr ?_⟩
      · rw [hf] at hp
        cases hp
        exact hle
      · rcases hout with rfl | ⟨s, hs, hx⟩
        · exact ⟨t, List.mem_cons_self, rfl, hf⟩
        · exact ⟨s, List.mem_cons_of_mem t hs, hx⟩

/-- What is read up to a stop has none of the stops in it. -/
theorem read_some (hne : ∀ t ∈ stops, t ≠ []) (h : read_until_stop text stops = (c, some s, rest)) :
    text = c ++ (s ++ rest) ∧ s ∈ stops ∧ ∀ t ∈ stops, ¬ t <:+: c := by
  rw [read_until_stop] at h
  split at h
  · rename_i m s' hfold
    obtain ⟨-, hmin, hout⟩ := foldl_nearer_spec hfold
    simp only [Prod.mk.injEq, Option.some.injEq] at h
    obtain ⟨rfl, rfl, rfl⟩ := h
    obtain ⟨s, hs, hse, hf⟩ : ∃ s ∈ stops, some s' = some s ∧ find s text = some m := by
      rcases hout with hx | hx
      · cases hx
      · exact hx
    cases hse
    obtain ⟨c, rest, rfl, rfl, -⟩ := find_some hf
    refine ⟨?_, hs, ?_⟩
    · rw [List.take_left, ← List.length_append, ← List.append_assoc, List.drop_left]
      simp
    · intro t ht hin
      rw [List.take_left] at hin
      obtain ⟨p, hp, hlt⟩ := find_lt (hne t ht) hin
      have hle := hmin t ht p hp
      omega
  · cases h

theorem read_none (hne : ∀ t ∈ stops, t ≠ []) (h : read_until_stop text stops = (c, none, rest)) :
    c = text ∧ rest = [] ∧ ∀ t ∈ stops, ¬ t <:+: text := by
  rw [read_until_stop] at h
  split at h
  · cases h
  · rename_i m hfold
    obtain ⟨hle, hmin, hout⟩ := foldl_nearer_spec hfold
    cases h
    refine ⟨rfl, rfl, ?_⟩
    intro t ht hin
    obtain ⟨p, hp, hlt⟩ := find_lt (hne t ht) hin
    rw [List.append_nil] at hp
    have hmp := hmin t ht p hp
    obtain hx | ⟨s, -, hs, -⟩ := hout
    · cases hx
      omega
    · cases hs

theorem read_free (hne : ∀ t ∈ stops, t ≠ []) (ht : t ∈ stops) : ¬ t <:+: (read_until_stop text stops).1 := by
  cases hr : read_until_stop text stops with
  | mk c r =>
    obtain ⟨stop, rest⟩ := r
    cases stop with
    | some s => exact (read_some hne hr).2.2 t ht
    | none =>
      obtain ⟨rfl, -, hfree⟩ := read_none hne hr
      exact hfree t ht

theorem read_length (text : List α) (stops : List (List α)) :
    (read_until_stop text stops).1.length + (read_until_stop text stops).2.2.length ≤ text.length := by
  rw [read_until_stop]
  split
  · simp only [List.length_take, List.length_drop]
    omega
  · simp

end

/-! ## Shortest matches -/

/-- The shortest text behind which `k` matches. -/
def lazy (k : List α → Option β) : List α → Option (List α × β)
  | [] => (k []).map fun b => ([], b)
  | a :: l =>
    match k (a :: l) with
    | some b => some ([], b)
    | none => (lazy k l).map fun (c, b) => (a :: c, b)

section
variable {k : List α → Option β} {c l rest : List α} {x : β}

theorem lazy_append (hk : k rest = some x) (hearly : ∀ c₁ c₂, c = c₁ ++ c₂ → c₂ ≠ [] → k (c₂ ++ rest) = none) :
    lazy k (c ++ rest) = some (c, x) := by
  induction c with
  | nil => cases rest <;> simp_all [lazy]
  | cons a c ih =>
    have hnow : k (a :: (c ++ rest)) = none := hearly [] (a :: c) rfl (by simp)
    rw [List.cons_append, lazy, hnow]
    have hrest := ih fun c₁ c₂ hc hne => hearly (a :: c₁) c₂ (by rw [hc]; rfl) hne
    rw [hrest, Option.map_some]

theorem lazy_some (h : lazy k l = some (c, x)) :
    ∃ rest, l = c ++ rest ∧ k rest = some x ∧ ∀ c₁ c₂, c = c₁ ++ c₂ → c₂ ≠ [] → k (c₂ ++ rest) = none := by
  induction l generalizing c with
  | nil =>
    obtain ⟨b, hb, he⟩ := Option.map_eq_some_iff.mp h
    cases he
    exact ⟨[], rfl, hb, by simp⟩
  | cons a l ih =>
    rw [lazy] at h
    cases hk : k (a :: l) with
    | some b =>
      rw [hk] at h
      cases h
      exact ⟨a :: l, rfl, hk, by simp⟩
    | none =>
      rw [hk] at h
      obtain ⟨⟨c', b⟩, hl, he⟩ := Option.map_eq_some_iff.mp h
      cases he
      obtain ⟨rest, rfl, hrest, hearly⟩ := ih hl
      refine ⟨rest, rfl, hrest, ?_⟩
      intro c₁ c₂ hc hne
      cases c₁ with
      | nil =>
        obtain rfl := hc
        exact hk
      | cons y c₁ =>
        obtain ⟨rfl, htail⟩ := List.cons.inj hc
        exact hearly c₁ c₂ htail hne

theorem lazy_isSome (h : (k rest).isSome = true) : (lazy k (c ++ rest)).isSome = true := by
  induction c with
  | nil =>
    cases rest with
    | nil => simpa [lazy] using h
    | cons a rest =>
      obtain ⟨b, hb⟩ := Option.isSome_iff_exists.mp h
      simp [lazy, hb]
  | cons a c ih =>
    rw [List.cons_append, lazy]
    cases k (a :: (c ++ rest)) with
    | some b => rfl
    | none => simpa using ih

end

end Stops
