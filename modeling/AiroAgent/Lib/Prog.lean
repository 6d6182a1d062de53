import Mathlib.Data.List.Basic

/-!
# Programs that leave a trace

A program does something, then ends with a value or stops with an error. Running
one after another joins what they did, and the first error is the last of it.
-/

structure Prog (τ ε α : Type) where
  trace : List τ
  result : Except ε α

namespace Prog

variable {τ ε α β : Type} {x : Prog τ ε α} {f : α → Prog τ ε β} {P : τ → Prop}

/-- No trace, only a value or an error. -/
def lift (r : Except ε α) : Prog τ ε α := ⟨[], r⟩

def emit (t : τ) : Prog τ ε Unit := ⟨[t], .ok ()⟩

instance : Monad (Prog τ ε) where
  pure a := ⟨[], .ok a⟩
  bind x f :=
    match x.result with
    | .ok a => ⟨x.trace ++ (f a).trace, (f a).result⟩
    | .error e => ⟨x.trace, .error e⟩

@[simp] theorem result_pure (a : α) : (pure a : Prog τ ε α).result = .ok a := rfl

theorem bind_ok {a : α} (h : x.result = .ok a) : x >>= f = ⟨x.trace ++ (f a).trace, (f a).result⟩ := by
  simp only [bind, h]

theorem bind_error {e : ε} (h : x.result = .error e) : x >>= f = ⟨x.trace, .error e⟩ := by
  simp only [bind, h]

theorem result_bind (x : Prog τ ε α) (f : α → Prog τ ε β) :
    (x >>= f).result = x.result >>= fun a => (f a).result := by
  cases h : x.result with
  | error e =>
    rw [bind_error h]
    rfl
  | ok a =>
    rw [bind_ok h]
    rfl

theorem ok_bind (a : α) (f : α → Except ε β) : (Except.ok a >>= f) = f a := rfl

theorem result_ite {p : Prop} [Decidable p] (x y : Prog τ ε α) :
    (if p then x else y).result = if p then x.result else y.result := apply_ite result p x y

theorem of_bind_ok {b : β} (h : (x >>= f).result = .ok b) :
    ∃ a, x.result = .ok a ∧ (f a).result = .ok b ∧ (x >>= f).trace = x.trace ++ (f a).trace := by
  cases hr : x.result with
  | error e =>
    rw [bind_error hr] at h
    cases h
  | ok a =>
    rw [bind_ok hr] at h ⊢
    exact ⟨a, rfl, h, rfl⟩

theorem mem_trace_bind {t : τ} (h : t ∈ x.trace) : t ∈ (x >>= f).trace := by
  cases hr : x.result with
  | error e =>
    rw [bind_error hr]
    exact h
  | ok a =>
    rw [bind_ok hr]
    exact List.mem_append_left _ h

theorem mem_trace_bind_ok {t : τ} {a : α} (hr : x.result = .ok a) (h : t ∈ (f a).trace) : t ∈ (x >>= f).trace := by
  rw [bind_ok hr]
  exact List.mem_append_right _ h

/-! ## What a program never does -/

def Never (P : τ → Prop) (x : Prog τ ε α) : Prop := ∀ t ∈ x.trace, ¬ P t

theorem Never.mono {Q : τ → Prop} (h : Never P x) (hQ : ∀ t, Q t → P t) : Never Q x := fun t ht hq => h t ht (hQ t hq)

theorem never_pure (a : α) : Never P (pure a : Prog τ ε α) := by
  intro t h
  cases h

theorem never_lift (r : Except ε α) : Never P (lift r : Prog τ ε α) := by
  intro t h
  cases h

theorem never_emit {t : τ} (h : ¬ P t) : Never P (emit t : Prog τ ε Unit) := by
  intro t' ht
  cases List.mem_singleton.mp ht
  exact h

theorem Never.bind (hx : Never P x) (hf : ∀ a, Never P (f a)) : Never P (x >>= f) := by
  intro t ht
  cases hr : x.result with
  | error e =>
    rw [bind_error hr] at ht
    exact hx t ht
  | ok a =>
    rw [bind_ok hr] at ht
    obtain ht | ht := List.mem_append.mp ht
    · exact hx t ht
    · exact hf a t ht

theorem never_ite {p : Prop} [Decidable p] {x y : Prog τ ε α} (hx : Never P x) (hy : Never P y) :
    Never P (if p then x else y) := by
  by_cases h : p
  · rwa [if_pos h]
  · rwa [if_neg h]

end Prog
