import Mathlib.Data.List.Basic

/-!
# Readers

A reader takes a value off the front of a list and leaves the rest. The readers
of a format are put together from smaller ones; what is shown here is how the
parts' behaviour on longer and on shorter inputs carries over to the whole.
-/

abbrev Reader (β α : Type) := List β → Option (α × List β)

namespace Reader

variable {α β γ : Type} {r : Reader β α} {c d e rest : List β} {a : α}

/-- What follows an input that is read is left over, and changes nothing else. -/
def Stable (r : Reader β α) : Prop := ∀ ⦃d a rest⦄ e, r d = some (a, rest) → r (d ++ e) = some (a, rest ++ e)

/-- `c` is read as `a`, whatever follows. -/
def Reads (r : Reader β α) (c : List β) (a : α) : Prop := ∀ rest, r (c ++ rest) = some (a, rest)

/-- `c` stops the reader, whatever follows. -/
def Fails (r : Reader β α) (c : List β) : Prop := ∀ rest, r (c ++ rest) = none

theorem stable_some (a : α) : Stable fun d : List β => some (a, d) := by
  intro d a' rest e h
  cases h
  rfl

theorem stable_none : Stable fun _ : List β => (none : Option (α × List β)) := by
  intro d a rest e h
  cases h

theorem stable_ite {p : Prop} [Decidable p] {r r' : Reader β α} (h : Stable r) (h' : Stable r') :
    Stable fun d => if p then r d else r' d := by
  by_cases hp : p
  · simpa [hp] using h
  · simpa [hp] using h'

theorem Stable.bind {f : α → Reader β γ} (hr : Stable r) (hf : ∀ a, Stable (f a)) :
    Stable (fun d => do
      let (a, rest) ← r d
      f a rest) := by
  intro d b rest e h
  simp only [Option.bind_eq_bind, Option.bind_eq_some_iff] at h ⊢
  obtain ⟨⟨a, rest'⟩, ha, hb⟩ := h
  exact ⟨_, hr e ha, hf a e hb⟩

theorem Stable.skip (hs : Stable r) (h : (r d).map Prod.snd = some rest) : (r (d ++ e)).map Prod.snd = some (rest ++ e) := by
  obtain ⟨x, hx, rfl⟩ := Option.map_eq_some_iff.mp h
  rw [hs e hx]
  rfl

theorem Reads.skip (hr : Reads r c a) : (r (c ++ rest)).map Prod.snd = some rest := by
  rw [hr rest]
  rfl

theorem Stable.map (g : α → γ) (hr : Stable r) :
    Stable (fun d => do
      let (a, rest) ← r d
      return (g a, rest)) :=
  hr.bind fun a => stable_some (g a)

theorem Reads.bind {f : α → Reader β γ} {c' : List β} {b : γ} (hr : Reads r c a) (hf : Reads (f a) c' b) :
    Reads (fun d => do
      let (a, rest) ← r d
      f a rest) (c ++ c') b := by
  intro rest
  simp only [List.append_assoc, hr (c' ++ rest), Option.bind_eq_bind, Option.bind_some]
  exact hf rest

theorem Reads.map (g : α → γ) (hr : Reads r c a) :
    Reads (fun d => do
      let (a, rest) ← r d
      return (g a, rest)) c (g a) := by
  intro rest
  simp only [hr rest, Option.bind_eq_bind, Option.bind_some, Option.pure_def]

/-! ## Inputs cut short -/

theorem Stable.of_take (hs : Stable r) {n : Nat} (h : r (d.take n) = some (a, rest)) : r d = some (a, rest ++ d.drop n) := by
  have := hs (d.drop n) h
  rwa [List.take_append_drop] at this

theorem Fails.take (hs : Stable r) (hf : Fails r c) (rest : List β) (n : Nat) : r ((c ++ rest).take n) = none := by
  cases h : r ((c ++ rest).take n) with
  | none => rfl
  | some x =>
    have := hs.of_take h
    rw [hf rest] at this
    cases this

/-- A cut behind `c` leaves the reading of it as it was, a cut within it leaves nothing to read. -/
theorem Reads.take (hs : Stable r) (hr : Reads r c a) (rest : List β) (n : Nat) :
    r ((c ++ rest).take n) = if c.length ≤ n then some (a, rest.take (n - c.length)) else none := by
  by_cases hn : c.length ≤ n
  · rw [if_pos hn, List.take_append, List.take_of_length_le hn]
    exact hr _
  · rw [if_neg hn]
    cases h : r ((c ++ rest).take n) with
    | none => rfl
    | some x =>
      -- what is left over would be longer than what there is
      have hfull := hs.of_take h
      rw [hr rest] at hfull
      have hlen := congrArg List.length (Prod.mk.inj (Option.some.inj hfull)).2
      simp only [List.length_append, List.length_drop] at hlen
      omega

end Reader
