import AiroAgent.LlamaCpp
import AiroAgent.Vllm

/-!
# Null knobs

What a `null` in a request does to the effective profile and to the launch, in
either adapter. vLLM's drops it before the defaults are merged in; llama.cpp's
merges it over them.
-/

namespace AiroAgent

variable {host : Host} {model : ModelRef} {p q : Profile} {k : Key} {port : Port}

namespace Profile

/-- The same map, whatever the order of the entries. -/
def Same (p q : Profile) : Prop := ∀ k, p.lookup k = q.lookup k

theorem Same.get (h : Same p q) (k : Key) : p.get k = q.get k := by
  unfold Profile.get
  rw [h k]

theorem reject_nil_reject_nil : p.reject_nil.reject_nil = p.reject_nil := by
  apply AList.ext
  simp only [reject_nil, List.filter_filter, Bool.and_self]

theorem merge_reject_nil : Same (p.merge q) (p.merge q.reject_nil) ↔ ∀ k, q.lookup k = some .nil → p.lookup k = some .nil := by
  refine forall_congr' fun k => ?_
  rw [lookup_merge, lookup_merge]
  by_cases h : q.lookup k = some .nil
  · rw [lookup_reject_nil h, h, Option.some_or, Option.none_or]
    simp [eq_comm]
  · rw [lookup_reject_nil_of_ne h]
    simp [h]

end Profile

/-! ## Each adapter -/

theorem Vllm.resolve_profile_reject_nil : Vllm.resolve_profile host model p.reject_nil = Vllm.resolve_profile host model p := by
  unfold Vllm.resolve_profile
  rw [Profile.reject_nil_reject_nil]

theorem Vllm.launch_spec_reject_nil : Vllm.launch_spec host model p.reject_nil port = Vllm.launch_spec host model p port := by
  unfold Vllm.launch_spec
  rw [Vllm.resolve_profile_reject_nil]

namespace LlamaCpp

theorem launch_spec_congr
    (h : ∀ k, (resolve_profile host model p).get k = (resolve_profile host model q).get k) :
    launch_spec host model p port = launch_spec host model q port := by
  unfold launch_spec argv env total_ctx reasoning_budget
  simp only [h]

theorem resolve_profile_same_iff :
    Profile.Same (resolve_profile host model p) (resolve_profile host model p.reject_nil) ↔
      ∀ k, p.lookup k = some .nil → (default_profile host model).lookup k = some .nil :=
  Profile.merge_reject_nil

end LlamaCpp

/-! ## Both -/

/-- `p` and `p` without its nulls come to the same for one model and port. -/
structure NullMeansUnset (host : Host) (model : ModelRef) (p : Profile) (port : Port) : Prop where
  llama_cpp_profile : Profile.Same (LlamaCpp.resolve_profile host model p) (LlamaCpp.resolve_profile host model p.reject_nil)
  llama_cpp_launch : LlamaCpp.launch_spec host model p port = LlamaCpp.launch_spec host model p.reject_nil port
  vllm_profile : Profile.Same (Vllm.resolve_profile host model p) (Vllm.resolve_profile host model p.reject_nil)
  vllm_launch : Vllm.launch_spec host model p port = Vllm.launch_spec host model p.reject_nil port

/-- **A null knob.** It means unset for both engines if and only if it stands for a knob
whose llama.cpp default is null as well. -/
theorem null_means_unset_iff (host : Host) (model : ModelRef) (p : Profile) (port : Port) :
    NullMeansUnset host model p port ↔
      ∀ k, p.lookup k = some .nil → (LlamaCpp.default_profile host model).lookup k = some .nil := by
  constructor
  · intro h
    exact LlamaCpp.resolve_profile_same_iff.mp h.llama_cpp_profile
  · intro h
    have hsame := LlamaCpp.resolve_profile_same_iff.mpr h
    exact {
      llama_cpp_profile := hsame
      llama_cpp_launch := LlamaCpp.launch_spec_congr hsame.get
      vllm_profile := fun k => by rw [Vllm.resolve_profile_reject_nil]
      vllm_launch := Vllm.launch_spec_reject_nil.symm }

def bare_host : Host := {
  slots := [8081]
  host_id := "bare"
  sha256 := fun _ => Vector.replicate 32 0
  float_to_string := fun _ _ => "" }

def bare_model : ModelRef := { id := "m", path := "/m.gguf", engine := .llama_cpp }

def null_budget : Profile := List.toAList [⟨.reasoning_budget, .nil⟩]

def launched_with (flag : String) (spec : Except LaunchError LaunchSpec) : Bool :=
  match spec with
  | .ok spec => flag ∈ spec.argv
  | .error _ => false

/-- `reasoning_budget: null` takes the runaway-thinking guard off the command line. -/
theorem null_budget_drops_guard :
    launched_with "--reasoning-budget" (LlamaCpp.launch_spec bare_host bare_model null_budget 8081) = false ∧
      launched_with "--reasoning-budget" (LlamaCpp.launch_spec bare_host bare_model null_budget.reject_nil 8081) = true ∧
      ¬ NullMeansUnset bare_host bare_model null_budget 8081 := by
  have hwithout : launched_with "--reasoning-budget" (LlamaCpp.launch_spec bare_host bare_model null_budget 8081) = false := by
    decide
  have hwith :
      launched_with "--reasoning-budget" (LlamaCpp.launch_spec bare_host bare_model null_budget.reject_nil 8081) = true := by
    decide
  refine ⟨hwithout, hwith, fun h => ?_⟩
  rw [h.llama_cpp_launch, hwith] at hwithout
  cases hwithout

end AiroAgent
