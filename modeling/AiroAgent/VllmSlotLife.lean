import AiroAgent.Lib.Run
import Mathlib.Logic.Function.Basic

/-!
# The life of a cluster launch

`vllm-slot` in cluster mode, once its traps are set: a shell with two background
clients, the `ssh` of rank 1 and the `run` of rank 0, and a container runtime
on each host. A run command that was issued makes its container at some later
moment, or fails; `rm -f` takes away a container that is there and nothing
else. No client is killed when the shell exits, and a client ends when it
likes, with any status.
-/

namespace AiroAgent.VllmSlot.Life

inductive Side where
  | head
  | worker
  deriving DecidableEq, Repr

/-- What the shell does next. `release_worker` is the remote loop that frees the name for rank 1. -/
inductive Command where
  | release_worker
  | run (side : Side)
  | wait
  | remove (side : Side)
  | exit (status : Nat)
  deriving DecidableEq, Repr

def cleanup : List Command := [.remove .head, .remove .worker]

/-- The script from the traps on. -/
def main : List Command := [.release_worker, .run .worker, .run .head, .wait]

/-- The container of this launch on one host: `pending` between the run command and its creation. -/
inductive Container where
  | absent
  | pending
  | created
  | removed
  | ended
  deriving DecidableEq, Repr

inductive Client where
  | absent
  | alive
  | exited (status : Nat)
  deriving DecidableEq, Repr

/-- `exit_trap`: the EXIT trap has still to run. -/
structure State where
  todo : List Command := main
  signalled : Bool := false
  exit_trap : Bool := true
  exited : Option Nat := none
  container : Side → Container := fun _ => .absent
  client : Side → Client := fun _ => .absent

/-- `released`: the remote loop saw the name free. -/
inductive Input where
  | shell (released : Bool)
  | signal
  | create (side : Side)
  | finish (side : Side)
  | client_exit (side : Side) (status : Nat)
  deriving DecidableEq, Repr

/-! ## Steps -/

def rm : Container → Container
  | .created => .removed
  | c => c

/-- One command of the shell. -/
def execute (released : Bool) (c : Command) (rest : List Command) (s : State) : Option State :=
  match c with
  | .release_worker => some { s with todo := if released then rest else [.exit 125] }
  | .run side => some { s with
      todo := rest
      container := Function.update s.container side .pending
      client := Function.update s.client side .alive }
  | .wait =>
    -- `wait $!` is for the client started last, and under `set -e` its status is that of the script
    match s.client .head with
    | .exited status => some { s with todo := [.exit status] }
    | _ => none
  | .remove side => some { s with todo := rest, container := Function.update s.container side (rm (s.container side)) }
  | .exit status =>
    if s.exit_trap then some { s with todo := cleanup ++ [.exit status], exit_trap := false }
    else some { s with todo := [], exited := some status }

/-- A signal is taken before the next command, and the handler ends in an exit: nothing
of what the shell was at is come back to. -/
def shell (released : Bool) (s : State) : Option State :=
  match s.exited with
  | some _ => none
  | none =>
    if s.signalled then some { s with todo := cleanup ++ [.exit 143], signalled := false }
    else match s.todo with
      | [] => some { s with todo := [.exit 0] }
      | c :: rest => execute released c rest s

def step (s : State) : Input → Option State
  | .shell released => shell released s
  | .signal => if s.exited = none then some { s with signalled := true } else none
  | .create side =>
    if s.container side = .pending then some { s with container := Function.update s.container side .created } else none
  | .finish side =>
    if s.container side = .pending ∨ s.container side = .created then
      some { s with container := Function.update s.container side .ended }
    else none
  | .client_exit side status =>
    if s.client side = .alive then some { s with client := Function.update s.client side (.exited status) } else none

abbrev History := List (State × Input)

abbrev Run : History → State → Prop := Machine.Run step {}

/-- The command a step of the shell carries out. -/
def issues (x : State × Input) : Option Command :=
  match x.2 with
  | .shell _ => if x.1.exited = none ∧ x.1.signalled = false then x.1.todo.head? else none
  | _ => none

/-! ## What a step can do -/

inductive Trans (s : State) : Input → State → Prop
  | trap {b} : s.exited = none → s.signalled = true →
      Trans s (.shell b) { s with todo := cleanup ++ [.exit 143], signalled := false }
  | script_end {b} : s.exited = none → s.signalled = false → s.todo = [] → Trans s (.shell b) { s with todo := [.exit 0] }
  | release_worker {b rest} : s.exited = none → s.signalled = false → s.todo = .release_worker :: rest →
      Trans s (.shell b) { s with todo := if b then rest else [.exit 125] }
  | run {b side rest} : s.exited = none → s.signalled = false → s.todo = .run side :: rest →
      Trans s (.shell b) { s with
        todo := rest
        container := Function.update s.container side .pending
        client := Function.update s.client side .alive }
  | wait {b status rest} : s.exited = none → s.signalled = false → s.todo = .wait :: rest →
      s.client .head = .exited status → Trans s (.shell b) { s with todo := [.exit status] }
  | remove {b side rest} : s.exited = none → s.signalled = false → s.todo = .remove side :: rest →
      Trans s (.shell b) { s with
        todo := rest
        container := Function.update s.container side (rm (s.container side)) }
  | exit {b status rest} : s.exited = none → s.signalled = false → s.todo = .exit status :: rest → s.exit_trap = true →
      Trans s (.shell b) { s with todo := cleanup ++ [.exit status], exit_trap := false }
  | exit_done {b status rest} : s.exited = none → s.signalled = false → s.todo = .exit status :: rest →
      s.exit_trap = false → Trans s (.shell b) { s with todo := [], exited := some status }
  | signal : s.exited = none → Trans s .signal { s with signalled := true }
  | create {side} : s.container side = .pending →
      Trans s (.create side) { s with container := Function.update s.container side .created }
  | finish {side} : s.container side = .pending ∨ s.container side = .created →
      Trans s (.finish side) { s with container := Function.update s.container side .ended }
  | client_exit {side status} : s.client side = .alive →
      Trans s (.client_exit side status) { s with client := Function.update s.client side (.exited status) }

theorem shell_trans {s s' : State} {b : Bool} (h : shell b s = some s') : Trans s (.shell b) s' := by
  unfold shell at h
  split at h
  · cases h
  · next hx =>
    split at h
    · next hs => cases h; exact .trap hx hs
    · next hs =>
      have hs : s.signalled = false := by simpa using hs
      split at h
      · next ht => cases h; exact .script_end hx hs ht
      · next c rest ht =>
        cases c with
        | release_worker => cases h; exact .release_worker hx hs ht
        | run side => cases h; exact .run hx hs ht
        | wait =>
          simp only [execute] at h
          split at h
          · next hc => cases h; exact .wait hx hs ht hc
          · cases h
        | remove side => cases h; exact .remove hx hs ht
        | exit status =>
          simp only [execute] at h
          split at h
          · next he => cases h; exact .exit hx hs ht he
          · next he => cases h; exact .exit_done hx hs ht (by simpa using he)

theorem step_trans {s s' : State} {i : Input} (h : step s i = some s') : Trans s i s' := by
  cases i with
  | shell b => exact shell_trans h
  | signal =>
    simp only [step, Option.ite_none_right_eq_some, Option.some.injEq] at h
    obtain ⟨hx, rfl⟩ := h
    exact .signal hx
  | create side =>
    simp only [step, Option.ite_none_right_eq_some, Option.some.injEq] at h
    obtain ⟨hc, rfl⟩ := h
    exact .create hc
  | finish side =>
    simp only [step, Option.ite_none_right_eq_some, Option.some.injEq] at h
    obtain ⟨hc, rfl⟩ := h
    exact .finish hc
  | client_exit side status =>
    simp only [step, Option.ite_none_right_eq_some, Option.some.injEq] at h
    obtain ⟨hc, rfl⟩ := h
    exact .client_exit hc

end AiroAgent.VllmSlot.Life
