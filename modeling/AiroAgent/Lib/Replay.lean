import Mathlib.Logic.Function.Basic
import Mathlib.Data.List.Induction

/-!
# Replaying a log of updates

Each entry of a log sets one key of a view to a value of its own. A replay is
decided key by key: by the last entry of the key, and by the view it starts
from where the log has none.
-/

namespace Replay

variable {κ ε ν : Type*}

def Touches (key : ε → κ) (log : List ε) (k : κ) : Prop := ∃ e ∈ log, key e = k

theorem touches_cons {key : ε → κ} {e : ε} {log : List ε} {k : κ} :
    Touches key (e :: log) k ↔ key e = k ∨ Touches key log k := by
  simp [Touches]

variable [DecidableEq κ]

theorem touches_iff_filter {key : ε → κ} {log : List ε} {k : κ} : Touches key log k ↔ log.filter (key · = k) ≠ [] := by
  simp [Touches, List.filter_eq_nil_iff]

def apply (key : ε → κ) (val : ε → ν) (view : κ → ν) (e : ε) : κ → ν := Function.update view (key e) (val e)

def replay (key : ε → κ) (val : ε → ν) (view : κ → ν) (log : List ε) : κ → ν := log.foldl (apply key val) view

section
variable {key : ε → κ} {val : ε → ν} {view view' : κ → ν} {log : List ε} {e : ε} {k : κ}

theorem replay_cons : replay key val view (e :: log) = replay key val (apply key val view e) log := rfl

theorem replay_append {log' : List ε} :
    replay key val view (log ++ log') = replay key val (replay key val view log) log' :=
  List.foldl_append

theorem replay_snoc : replay key val view (log ++ [e]) = apply key val (replay key val view log) e := by
  rw [replay_append]; rfl

theorem apply_self : apply key val view e (key e) = val e := Function.update_self _ _ _

theorem apply_of_ne (h : k ≠ key e) : apply key val view e k = view k := Function.update_of_ne h _ _

theorem replay_untouched (h : ¬ Touches key log k) : replay key val view log k = view k := by
  induction log generalizing view with
  | nil => rfl
  | cons e log ih =>
    rw [touches_cons, not_or] at h
    rw [replay_cons, ih h.2, apply_of_ne (Ne.symm h.1)]

theorem replay_touched (h : Touches key log k) : replay key val view log k = replay key val view' log k := by
  induction log generalizing view view' with
  | nil => obtain ⟨e, he, -⟩ := h; cases he
  | cons e log ih =>
    rw [replay_cons, replay_cons]
    by_cases ht : Touches key log k
    · exact ih ht
    · have hk : key e = k := (touches_cons.mp h).resolve_right ht
      subst hk
      rw [replay_untouched ht, replay_untouched ht, apply_self, apply_self]

/-- Where all entries of a key agree, their number and order are nothing. -/
theorem replay_const {v : ν} (h : Touches key log k) (hv : ∀ e ∈ log, key e = k → val e = v) : replay key val view log k = v := by
  induction log generalizing view with
  | nil =>
    obtain ⟨e, he, -⟩ := h
    cases he
  | cons e log ih =>
    have htail : ∀ e ∈ log, key e = k → val e = v := fun e he => hv e (List.mem_cons_of_mem _ he)
    rw [replay_cons]
    by_cases ht : Touches key log k
    · exact ih ht htail
    · have hk : key e = k := (touches_cons.mp h).resolve_right ht
      rw [replay_untouched ht, ← hk, apply_self]
      exact hv e List.mem_cons_self hk

theorem replay_filter : replay key val view (log.filter (key · = k)) k = replay key val view log k := by
  induction log using List.reverseRecOn with
  | nil => rfl
  | append_singleton log e ih =>
    rw [List.filter_append, replay_snoc]
    by_cases hk : key e = k
    · subst hk
      have he : [e].filter (key · = key e) = [e] := by simp
      rw [he, replay_snoc, apply_self, apply_self]
    · have he : [e].filter (key · = k) = [] := by simp [hk]
      rw [he, List.append_nil, ih, apply_of_ne (Ne.symm hk)]

theorem replay_eq_of_filter {log' : List ε} (h : log'.filter (key · = k) = log.filter (key · = k)) :
    replay key val view log' k = replay key val view log k := by
  rw [← replay_filter, h, replay_filter]

theorem replay_last {log₀ : List ε} (h : log.filter (key · = k) = log₀ ++ [e]) : replay key val view log k = val e := by
  have hk : key e = k := by
    have : e ∈ log.filter (key · = k) := by rw [h]; simp
    simpa using (List.mem_filter.mp this).2
  rw [← replay_filter, h, replay_snoc]
  subst hk
  exact apply_self

end

end Replay
