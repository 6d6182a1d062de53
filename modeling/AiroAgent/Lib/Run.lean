import Mathlib.Data.List.Forall2

/-!
# Runs of a partial machine

A machine is a partial step function: `step s i` is the state after input `i`,
or nothing when `i` is not enabled in `s`. A run is recorded with the states it
passed through, so that a property of a run can speak of the state each input
was handled in.
-/

namespace Machine

variable {σ τ ι : Type*}

section
variable (step : σ → ι → Option σ)

def exec : σ → List ι → Option σ
  | s, [] => some s
  | s, i :: tr =>
    match step s i with
    | some s' => exec s' tr
    | none => none

/-- The inputs of a trace, each with the state it is handled in. -/
def visits : σ → List ι → List (σ × ι)
  | _, [] => []
  | s, i :: tr =>
    match step s i with
    | some s' => (s, i) :: visits s' tr
    | none => []

inductive Run (s₀ : σ) : List (σ × ι) → σ → Prop
  | nil : Run s₀ [] s₀
  | snoc {h s i s'} : Run s₀ h s → step s i = some s' → Run s₀ (h ++ [(s, i)]) s'

end

section
variable {step : σ → ι → Option σ} {s₀ : σ}

theorem visits_inputs {s s' : σ} {tr : List ι} (he : Machine.exec step s tr = some s') :
    (visits step s tr).map Prod.snd = tr := by
  induction tr generalizing s with
  | nil => rfl
  | cons i tr ih =>
    rw [Machine.exec] at he
    rw [visits]
    cases hs : step s i with
    | none => rw [hs] at he; cases he
    | some s₁ =>
      rw [hs] at he
      simp [ih he]

theorem snoc_split {α : Type*} {h h₁ h₂ : List α} {a x : α} (hh : h ++ [a] = h₁ ++ x :: h₂) :
    (h₂ = [] ∧ h₁ = h ∧ x = a) ∨ ∃ h₃, h₂ = h₃ ++ [a] ∧ h = h₁ ++ x :: h₃ := by
  rcases List.eq_nil_or_concat h₂ with rfl | ⟨h₃, y, rfl⟩
  · obtain ⟨rfl, he⟩ := List.append_inj' hh rfl
    cases he
    exact .inl ⟨rfl, rfl, rfl⟩
  · rw [List.concat_eq_append, ← List.cons_append, ← List.append_assoc] at hh
    obtain ⟨rfl, he⟩ := List.append_inj' hh rfl
    cases he
    exact .inr ⟨h₃, List.concat_eq_append, rfl⟩

/-- **The invariant rule.** What holds at the start and is kept by every step
holds at the end of every run. -/
theorem Run.inv {P : σ → Prop} (h0 : P s₀) (hs : ∀ s i s', P s → step s i = some s' → P s')
    {h : List (σ × ι)} {s : σ} (hr : Run step s₀ h s) : P s := by
  induction hr with
  | nil => exact h0
  | snoc _ hst ih => exact hs _ _ _ ih hst

theorem Run.append_visits {h : List (σ × ι)} {s s' : σ} {tr : List ι} (hr : Run step s₀ h s)
    (he : Machine.exec step s tr = some s') : Run step s₀ (h ++ visits step s tr) s' := by
  induction tr generalizing h s with
  | nil => cases he; rw [visits, List.append_nil]; exact hr
  | cons i tr ih =>
    rw [Machine.exec] at he
    rw [visits]
    cases hs : step s i with
    | none => rw [hs] at he; cases he
    | some s₁ =>
      rw [hs] at he
      have := ih (hr.snoc hs) he
      rwa [List.append_assoc] at this

theorem Run.of_exec {s : σ} {tr : List ι} (he : Machine.exec step s₀ tr = some s) :
    Run step s₀ (visits step s₀ tr) s := by
  simpa using Run.append_visits Run.nil he

/-- Every input of a run was handled in a state the run reached, and was enabled there. -/
theorem Run.split {h h₁ h₂ : List (σ × ι)} {s s₁ : σ} {i : ι} (hr : Run step s₀ h s)
    (hh : h = h₁ ++ (s₁, i) :: h₂) : Run step s₀ h₁ s₁ ∧ ∃ s₂, step s₁ i = some s₂ := by
  induction hr generalizing h₂ with
  | nil => simp at hh
  | @snoc h s j s' hr hst ih =>
    rcases snoc_split hh with ⟨-, rfl, he⟩ | ⟨h₃, -, hh⟩
    · cases he
      exact ⟨hr, _, hst⟩
    · exact ih hh

end

/-! ## Two runs -/

section
variable {step : σ → ι → Option σ} {step' : τ → ι → Option τ} {s₀ : σ} {t₀ : τ}

/-- **Deleting inputs.** When the kept inputs keep the two machines related, and
the deleted ones move only the first, the second machine runs on the kept
inputs alone, and meets each of them in a related state. -/
theorem Run.filter (R : σ → τ → Prop) (keep : σ × ι → Bool) (h0 : R s₀ t₀)
    (hkeep : ∀ s t i s', R s t → keep (s, i) = true → step s i = some s' → ∃ t', step' t i = some t' ∧ R s' t')
    (hdrop : ∀ s t i s', R s t → keep (s, i) = false → step s i = some s' → R s' t)
    {h : List (σ × ι)} {s : σ} (hr : Run step s₀ h s) :
    ∃ h' t, Run step' t₀ h' t ∧ R s t ∧ List.Forall₂ (fun x y => R x.1 y.1 ∧ x.2 = y.2) (h.filter keep) h' := by
  induction hr with
  | nil => exact ⟨[], t₀, .nil, h0, .nil⟩
  | @snoc h s i s' hr hst ih =>
    obtain ⟨h', t, hr', hR, hf⟩ := ih
    rw [List.filter_append]
    cases hk : keep (s, i) with
    | true =>
      obtain ⟨t', ht, hR'⟩ := hkeep s t i s' hR hk hst
      rw [List.filter_cons_of_pos hk, List.filter_nil]
      exact ⟨h' ++ [(t, i)], t', hr'.snoc ht, hR', List.rel_append hf (.cons ⟨hR, rfl⟩ .nil)⟩
    | false =>
      rw [List.filter_cons_of_neg (by simp [hk]), List.filter_nil, List.append_nil]
      exact ⟨h', t, hr', hdrop s t i s' hR hk hst, hf⟩

/-- **Looking at one part.** When the inputs `f` keeps move the part `p` shows as the second
machine moves, and the others leave it alone, the part runs like the second machine. -/
theorem Run.project {κ : Type*} {part : τ → κ → Option τ} (p : σ → τ) (f : ι → Option κ)
    (hkeep : ∀ s i s' j, f i = some j → step s i = some s' → part (p s) j = some (p s'))
    (hdrop : ∀ s i s', f i = none → step s i = some s' → p s' = p s) {h : List (σ × ι)} {s : σ}
    (hr : Run step s₀ h s) : Run part (p s₀) (h.filterMap fun x => (f x.2).map fun j => (p x.1, j)) (p s) := by
  induction hr with
  | nil => exact .nil
  | @snoc h s i s' hr hst ih =>
    rw [List.filterMap_append]
    cases hf : f i with
    | none =>
      have hnone : List.filterMap (fun x => (f x.2).map fun j => (p x.1, j)) [(s, i)] = [] := by simp [hf]
      rw [hnone, List.append_nil, hdrop s i s' hf hst]
      exact ih
    | some j =>
      have hsome : List.filterMap (fun x => (f x.2).map fun j => (p x.1, j)) [(s, i)] = [(p s, j)] := by simp [hf]
      rw [hsome]
      exact ih.snoc (hkeep s i s' j hf hst)

end

theorem exec_append {step : σ → ι → Option σ} {s s' : σ} {tr tr' : List ι} (h : exec step s tr = some s') :
    exec step s (tr ++ tr') = exec step s' tr' := by
  induction tr generalizing s with
  | nil =>
    cases h
    rfl
  | cons i tr ih =>
    rw [exec] at h
    rw [List.cons_append, exec]
    cases hs : step s i with
    | none =>
      rw [hs] at h
      cases h
    | some s₁ =>
      rw [hs] at h
      exact ih h

end Machine
