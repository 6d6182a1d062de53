import AiroAgent.Types
import AiroAgent.Lib.Text

/-!
# Launching an engine

What an adapter hands over: the words of a command line and an environment.
Values of a profile become words with `to_string`, which raises on a map; the
port a command runs under takes strings in its environment and nothing else.
-/

namespace AiroAgent

inductive LaunchError where
  | vllm_cluster_not_configured
  | raised
  deriving DecidableEq, Repr

inductive Readiness where
  | http_get (path : String)
  deriving DecidableEq, Repr

theorem bind_eq_ok {ε α β : Type} {x : Except ε α} {f : α → Except ε β} {b : β} :
    (x >>= f) = .ok b ↔ ∃ a, x = .ok a ∧ f a = .ok b := by
  cases x with
  | error e => simp [bind, Except.bind]
  | ok a => simp [bind, Except.bind]

theorem bind_eq_error {ε α β : Type} {x : Except ε α} {f : α → Except ε β} {e : ε} :
    (x >>= f) = .error e ↔ x = .error e ∨ ∃ a, x = .ok a ∧ f a = .error e := by
  cases x with
  | error e => simp [bind, Except.bind]
  | ok a => simp [bind, Except.bind]

structure LaunchSpec where
  argv : List String
  env : List (String × Val)
  readiness : Readiness

namespace Host

variable {host : Host}

def to_string (host : Host) : Val → Option String := Val.to_string host.float_to_string

def words (host : Host) (values : List Val) : Option (List String) := values.mapM host.to_string

theorem words_cons_eq_some {v : Val} {vs : List Val} {ws : List String} :
    host.words (v :: vs) = some ws ↔ ∃ s ss, host.to_string v = some s ∧ host.words vs = some ss ∧ ws = s :: ss := by
  simp only [words, List.mapM_cons, Option.bind_eq_bind, Option.bind_eq_some_iff, Option.pure_def, Option.some.injEq]
  constructor
  · intro h
    obtain ⟨s, hs, ss, hss, rfl⟩ := h
    exact ⟨s, ss, hs, hss, rfl⟩
  · intro h
    obtain ⟨s, ss, hs, hss, rfl⟩ := h
    exact ⟨s, hs, ss, hss, rfl⟩

theorem mem_words : ∀ {values : List Val} {ws : List String}, host.words values = some ws →
    ∀ w ∈ ws, ∃ v ∈ values, host.to_string v = some w
  | [], ws, h, w, hw => by
    cases Option.some.inj h
    cases hw
  | v :: vs, ws, h, w, hw => by
    obtain ⟨s, ss, hs, hss, rfl⟩ := words_cons_eq_some.mp h
    rcases List.mem_cons.mp hw with rfl | hw
    · exact ⟨v, List.mem_cons_self, hs⟩
    · obtain ⟨v', hv', he⟩ := mem_words hss w hw
      exact ⟨v', List.mem_cons_of_mem v hv', he⟩

theorem words_ne_none : ∀ {values : List Val}, host.words values ≠ none ↔ ∀ v ∈ values, host.to_string v ≠ none
  | [] => by simp [words]
  | v :: vs => by
    have ih : host.words vs ≠ none ↔ ∀ v ∈ vs, host.to_string v ≠ none := words_ne_none
    rw [List.forall_mem_cons, ← ih]
    simp only [words, List.mapM_cons]
    cases host.to_string v <;> cases List.mapM host.to_string vs <;> simp

@[simp] theorem words_str (l : List String) : host.words (l.map .str) = some l := by
  induction l with
  | nil => rfl
  | cons s l ih => exact words_cons_eq_some.mpr ⟨s, l, rfl, ih, rfl⟩

theorem words_append {vs vs' : List Val} :
    host.words (vs ++ vs') = (do some ((← host.words vs) ++ (← host.words vs'))) := by
  simp [words]

end Host

/-! ## The environment of a port -/

/-- Values a port's environment takes: a string, or `nil` to leave the variable unset. -/
def Val.env_value : Val → Bool
  | .nil | .str _ => true
  | _ => false

/-- The variables an engine process finds set: an empty value is removed like `nil`. -/
def port_env : List (String × Val) → Option (List (String × String))
  | [] => some []
  | (k, .str v) :: pairs => do
    let env ← port_env pairs
    some (if v = "" then env else (k, v) :: env)
  | (_, .nil) :: pairs => port_env pairs
  | _ :: _ => none

theorem port_env_cons_str {k v : String} {pairs : List (String × Val)} {env : List (String × String)} :
    port_env ((k, .str v) :: pairs) = some env ↔
      ∃ rest, port_env pairs = some rest ∧ env = if v = "" then rest else (k, v) :: rest := by
  simp only [port_env, Option.bind_eq_bind, Option.bind_eq_some_iff, Option.some.injEq]
  exact exists_congr fun rest => and_congr_right fun _ => eq_comm

theorem port_env_ne_none {pairs : List (String × Val)} :
    port_env pairs ≠ none ↔ ∀ p ∈ pairs, p.2.env_value = true := by
  induction pairs using port_env.induct with
  | case1 => simp [port_env]
  | case2 k v pairs ih =>
    rw [List.forall_mem_cons, ← ih]
    cases h : port_env pairs <;> simp [port_env, h, Val.env_value]
  | case3 k pairs ih => simp [port_env, ih, Val.env_value]
  | case4 p pairs hstr hnil =>
    obtain ⟨k, v⟩ := p
    cases v with
    | nil => exact absurd rfl (hnil k)
    | str s => exact absurd rfl (hstr k s)
    | _ => simp [port_env, Val.env_value]

theorem port_env_lookup {pairs : List (String × Val)} {env : List (String × String)} {k v : String}
    (h : port_env pairs = some env) (hk : pairs.lookup k = some (.str v)) (hv : v ≠ "") : env.lookup k = some v := by
  induction pairs using port_env.induct generalizing env with
  | case1 => cases hk
  | case2 k' v' pairs ih =>
    obtain ⟨rest, hrest, rfl⟩ := port_env_cons_str.mp h
    by_cases hkk : k = k'
    · subst hkk
      simp only [List.lookup_cons_self, Option.some.injEq, Val.str.injEq] at hk
      subst hk
      simp [hv]
    · have hne : (k == k') = false := beq_false_of_ne hkk
      have hrec := ih hrest (by simpa [List.lookup_cons, hne] using hk)
      split
      · exact hrec
      · simpa [List.lookup_cons, hne] using hrec
  | case3 k' pairs ih =>
    by_cases hkk : k = k'
    · simp [hkk] at hk
    · exact ih h (by simpa [List.lookup_cons, beq_false_of_ne hkk] using hk)
  | case4 p pairs hstr hnil => simp [port_env] at h

theorem port_env_lookup_none {pairs : List (String × Val)} {env : List (String × String)} {k : String}
    (h : port_env pairs = some env) (hk : k ∉ pairs.map Prod.fst) : env.lookup k = none := by
  induction pairs using port_env.induct generalizing env with
  | case1 => cases h; rfl
  | case2 k' v' pairs ih =>
    obtain ⟨rest, hrest, rfl⟩ := port_env_cons_str.mp h
    rw [List.map_cons, List.mem_cons, not_or] at hk
    have hrec := ih hrest hk.2
    split
    · exact hrec
    · simpa [List.lookup_cons, beq_false_of_ne hk.1] using hrec
  | case3 k' pairs ih =>
    rw [List.map_cons, List.mem_cons, not_or] at hk
    exact ih h hk.2
  | case4 p pairs hstr hnil => simp [port_env] at h

end AiroAgent
