import Mathlib.Data.List.TakeWhile
import Mathlib.Tactic.Linarith

/-!
# Restart intensity

A supervisor remembers when it restarted a child, newest first, and forgets what
has left its period. When it remembers one restart too many it gives up, which
is one fault for the supervisor above it. `Paid` is what two such supervisors
remember between them, charged to the faults that caused it: a fault right under
the outer one weighs as much as all the faults the inner one takes to give up.
-/

namespace Restarts

structure Budget where
  max_restarts : Nat
  max_seconds : Nat

/-- This restart, and those still in the period. -/
def Budget.add_restart (b : Budget) (now : Int) (restarts : List Int) : List Int :=
  now :: restarts.takeWhile fun t => now ≤ t + b.max_seconds

def Budget.exhausted (b : Budget) (restarts : List Int) : Bool := b.max_restarts < restarts.length

/-- What one fault of the supervisor itself stands for. -/
def Budget.weight (b : Budget) : Nat := b.max_restarts + 1

def since (t : Int) (times : List Int) : Nat := times.countP fun x => t ≤ x

section
variable {b : Budget} {now t : Int} {times restarts : List Int}

theorem since_of_forall (h : ∀ x ∈ times, t ≤ x) : since t times = times.length :=
  List.countP_eq_length.mpr fun x hx => by simpa using h x hx

theorem mem_add_restart {x : Int} (h : x ∈ b.add_restart now restarts) : now ≤ x + b.max_seconds := by
  rcases List.mem_cons.mp h with rfl | h
  · omega
  · simpa using List.mem_takeWhile_imp h

theorem since_add_restart (b : Budget) (restarts : List Int) (h : t + b.max_seconds ≤ now) :
    since t (b.add_restart now restarts) = (b.add_restart now restarts).length := by
  refine since_of_forall fun x hx => ?_
  have := mem_add_restart hx
  omega

theorem exhausted_iff : b.exhausted restarts = true ↔ b.weight ≤ restarts.length := by
  simp only [Budget.exhausted, Budget.weight, decide_eq_true_eq]
  omega

end

/-! ## One supervisor under another -/

/-- `os` and `is` are what the outer and the inner supervisor remember, `direct` the
times of the faults right under the outer one, `nested` of those under the inner one. -/
def Paid (inner : Budget) (direct nested os is : List Int) : Prop :=
  ∀ t, inner.weight * since (t + inner.max_seconds) os + since t is ≤
    inner.weight * since (t + inner.max_seconds) direct + since t nested

section
variable {outer inner : Budget} {direct nested os is : List Int} {now : Int}

theorem Paid.nil : Paid inner [] [] [] [] := fun _ => le_refl _

/-- **The outer supervisor gives up** only when enough has failed: in its own period
right under it, in both periods together under the inner one. -/
theorem Paid.exhausted (h : Paid inner direct nested (outer.add_restart now os) is)
    (hx : outer.exhausted (outer.add_restart now os) = true) :
    inner.weight * outer.weight ≤ inner.weight * since (now - outer.max_seconds) direct +
      since (now - outer.max_seconds - inner.max_seconds) nested := by
  have hpaid := h (now - outer.max_seconds - inner.max_seconds)
  have ht : now - outer.max_seconds - inner.max_seconds + inner.max_seconds = now - outer.max_seconds := by omega
  have hnow : now - outer.max_seconds + outer.max_seconds ≤ now := by omega
  rw [ht, since_add_restart outer os hnow] at hpaid
  have hmul := Nat.mul_le_mul_left inner.weight (exhausted_iff.mp hx)
  omega

end

end Restarts
