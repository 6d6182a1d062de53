import AiroAgent.Lib.Restarts
import AiroAgent.Lib.Run
import AiroAgent.Runtime

/-!
# The firewall in front of serving

The tree the application starts, and what its two supervisors do about a child
that died or did not come back: restart it alone, or give up when the budget of
restarts is spent. The channels are under a supervisor of their own, so that
their faults reach the one over Fleet and the engines only when the wide budget
of theirs is spent, and then as a single fault.
-/

namespace AiroAgent.Supervision

open Restarts (Budget since Paid)

abbrev Config := Runtime.Config

inductive Child where
  | gpu
  | inventory
  | instances
  | fleet
  | registry
  | peer_ranks
  | notifier
  | api
  deriving DecidableEq, Repr

def peer_rank_children (cfg : Config) : List Child := if .vllm ∈ cfg.host.engines then [.peer_ranks] else []

def notifier_children (cfg : Config) : List Child :=
  match cfg.notifier with
  | .channel => [.notifier]
  | .log => []

def children (cfg : Config) : List Child :=
  [.gpu, .inventory, .instances, .fleet, .registry] ++ peer_rank_children cfg ++ notifier_children cfg ++ [.api]

/-- OTP's defaults. -/
def app_budget : Budget := ⟨3, 5⟩

def notifier_budget : Budget := ⟨100, 10⟩

/-- A child of the notifier supervisor is known by its address; two of one id stop the start. -/
def notifier_init (cfg : Config) : Option (List String) :=
  let ids := cfg.airo_endpoints.map (·.uri)
  if ids.Nodup then some ids else none

structure Sys where
  alive : Bool := true
  restarts : List Int := []
  channel_restarts : List Int := []
  started : Child → Nat

/-- What comes of starting a child, and of starting the client for an address. -/
structure Starts where
  child : Child → Bool
  channel : String → Bool

def Starts.starts (cfg : Config) (starts : Starts) : Child → Bool
  | .notifier =>
    match notifier_init cfg with
    | some ids => ids.all starts.channel
    | none => false
  | c => starts.child c

/-- A child that does not start, such as the API on a port that is taken, stops the application. -/
def boot (cfg : Config) (starts : Starts) : Option Sys :=
  if (children cfg).all (starts.starts cfg) then some { started := fun c => if (children cfg).contains c then 1 else 0 } else none

/-- A child died by itself, or an attempt to restart it failed. -/
inductive Input where
  | fault (c : Child) (now : Int)
  | channel_fault (uri : String) (now : Int)

def Sys.restart (c : Child) (now : Int) (s : Sys) : Sys :=
  let restarts := app_budget.add_restart now s.restarts
  if app_budget.exhausted restarts then { s with alive := false, restarts }
  else { s with restarts, started := Function.update s.started c (s.started c + 1) }

def step (cfg : Config) (s : Sys) : Input → Option Sys
  | .fault c now =>
    if s.alive = true ∧ c ∈ children cfg then
      some ((if c = .notifier then { s with channel_restarts := [] } else s).restart c now)
    else none
  | .channel_fault uri now =>
    if s.alive = true ∧ .notifier ∈ children cfg ∧ uri ∈ cfg.airo_endpoints.map (·.uri) then
      let channel_restarts := notifier_budget.add_restart now s.channel_restarts
      if notifier_budget.exhausted channel_restarts then some ({ s with channel_restarts := [] }.restart .notifier now)
      else some { s with channel_restarts }
    else none

abbrev History := List (Sys × Input)

/-! ## What went wrong, and when -/

section
variable {cfg : Config} {starts : Starts} {s s' : Sys} {s₀ : Sys} {h : History} {c d : Child} {now : Int} {uri : String} {i : Input}

inductive Trans (cfg : Config) (s : Sys) : Input → Sys → Prop
  | fault {c : Child} {now : Int} : s.alive = true → c ∈ children cfg → c ≠ .notifier → Trans cfg s (.fault c now) (s.restart c now)
  | notifier {now : Int} : s.alive = true → Child.notifier ∈ children cfg →
      Trans cfg s (.fault .notifier now) ({ s with channel_restarts := [] }.restart .notifier now)
  | absorbed {uri : String} {now : Int} : s.alive = true →
      Trans cfg s (.channel_fault uri now)
        { s with channel_restarts := notifier_budget.add_restart now s.channel_restarts }
  | gives_up {uri : String} {now : Int} : s.alive = true → Child.notifier ∈ children cfg →
      notifier_budget.exhausted (notifier_budget.add_restart now s.channel_restarts) = true →
      Trans cfg s (.channel_fault uri now) ({ s with channel_restarts := [] }.restart .notifier now)

theorem step_trans (hst : step cfg s i = some s') : Trans cfg s i s' := by
  cases i with
  | fault c now =>
    simp only [step, Option.ite_none_right_eq_some, Option.some.injEq] at hst
    obtain ⟨⟨ha, hc⟩, rfl⟩ := hst
    by_cases hn : c = .notifier
    · subst hn
      exact .notifier ha hc
    · rw [if_neg hn]
      exact .fault ha hc hn
  | channel_fault uri now =>
    simp only [step, Option.ite_none_right_eq_some] at hst
    obtain ⟨⟨ha, hn, -⟩, hst⟩ := hst
    by_cases hx : notifier_budget.exhausted (notifier_budget.add_restart now s.channel_restarts) = true
    · rw [if_pos hx, Option.some.injEq] at hst
      subst hst
      exact .gives_up ha hn hx
    · rw [if_neg hx, Option.some.injEq] at hst
      subst hst
      exact .absorbed ha

/-! ## What the supervisors remember is paid for -/

theorem boot_eq (hb : boot cfg starts = some s₀) : s₀ = { started := fun c => if (children cfg).contains c then 1 else 0 } := by
  unfold boot at hb
  split at hb
  · exact (Option.some.inj hb).symm
  · cases hb

end

/-! ## From the environment on -/

end AiroAgent.Supervision
