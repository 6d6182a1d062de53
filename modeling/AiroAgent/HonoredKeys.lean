import AiroAgent.Instance
import AiroAgent.NullKnob
import AiroAgent.VllmLaunch

/-!
# Honored keys

Each adapter declares the profile keys its launch reads. A launch reads no other
key, and each of them can change it, so that the keys `Instance` warns about are
the ones without effect.
-/

namespace AiroAgent

/-! ## Reading a key -/

/-- Some launch turns on `k` alone. -/
def Effective (launch_spec : ModelRef → Profile → Except LaunchError LaunchSpec) (k : Key) : Prop :=
  ∃ model p q, (∀ k' ≠ k, p.lookup k' = q.lookup k') ∧ launch_spec model p ≠ launch_spec model q

structure ReadsExactly (keys : List Key) (launch_spec : ModelRef → Profile → Except LaunchError LaunchSpec) : Prop where
  no_other : ∀ model p q, (∀ k ∈ keys, p.lookup k = q.lookup k) → launch_spec model p = launch_spec model q
  each : ∀ k ∈ keys, Effective launch_spec k

theorem ReadsExactly.mem_iff {keys : List Key} {launch_spec : ModelRef → Profile → Except LaunchError LaunchSpec}
    (h : ReadsExactly keys launch_spec) (k : Key) : k ∈ keys ↔ Effective launch_spec k := by
  refine ⟨h.each k, fun heff => ?_⟩
  obtain ⟨model, p, q, hpq, hne⟩ := heff
  by_contra hk
  exact hne (h.no_other model p q fun k' hk' => hpq k' fun e => hk (e ▸ hk'))

/-! ## llama.cpp -/

namespace LlamaCpp

variable {host : Host} {model : ModelRef} {p q : Profile} {port : Port}

theorem launch_spec_of_get
    (h : ∀ k ∈ honored_profile_keys, (resolve_profile host model p).get k = (resolve_profile host model q).get k) :
    launch_spec host model p port = launch_spec host model q port := by
  unfold launch_spec argv env total_ctx reasoning_budget
  simp (disch := decide) only [h]

theorem launch_spec_honored (h : ∀ k ∈ honored_profile_keys, p.lookup k = q.lookup k) :
    launch_spec host model p port = launch_spec host model q port := by
  apply launch_spec_of_get
  intro k hk
  unfold resolve_profile Profile.get
  rw [Profile.lookup_merge, Profile.lookup_merge, h k hk]

/-- Every knob null but a projector, so that the launch takes nothing from the host. -/
def bare : Profile :=
  (List.toAList (honored_profile_keys.map fun k => (⟨k, .nil⟩ : Sigma fun _ : Key => Val))).insert .mmproj (.str "p")

/-- A value of `k` that shows in the launch. -/
def telling : Key → Val
  | .ctx => .int 2
  | .jinja | .disable_thinking => .bool true
  | _ => .str "b"

/-- The words behind the model, the host and the port, and the names of the variables. -/
def shown : Except LaunchError LaunchSpec → List String × List String
  | .ok spec => (spec.argv.drop 6, spec.env.map Prod.fst)
  | .error _ => ([], [])

theorem shown_telling (host : Host) (model : ModelRef) (port : Port) : honored_profile_keys.all (fun k =>
    shown (launch_spec host model bare port) != shown (launch_spec host model (bare.insert k (telling k)) port)) = true := by
  rfl

theorem reads_exactly (host : Host) (port : Port) :
    ReadsExactly honored_profile_keys fun model p => launch_spec host model p port where
  no_other _ _ _ h := launch_spec_honored h
  each k hk := by
    refine ⟨bare_model, bare, bare.insert k (telling k), fun k' hk' => (AList.lookup_insert_ne hk').symm, fun h => ?_⟩
    have hshown := List.all_eq_true.mp (shown_telling host bare_model port) k hk
    simp only at h
    rw [h] at hshown
    simp at hshown

end LlamaCpp

/-! ## vLLM -/

namespace Vllm

variable {host : Host} {model : ModelRef} {p q r r' : Profile} {port : Port}

theorem lookup_reject_nil_congr {k : Key} (h : p.lookup k = q.lookup k) : p.reject_nil.lookup k = q.reject_nil.lookup k := by
  by_cases hp : p.lookup k = some .nil
  · rw [Profile.lookup_reject_nil hp, Profile.lookup_reject_nil (h ▸ hp)]
  · rw [Profile.lookup_reject_nil_of_ne hp, Profile.lookup_reject_nil_of_ne (h ▸ hp), h]

theorem launch_spec_of_get
    (h : ∀ k ∈ honored_profile_keys, (resolve_profile host model p).get k = (resolve_profile host model q).get k) :
    launch_spec host model p port = launch_spec host model q port := by
  have hvalues : value_flags host (resolve_profile host model p) value_knobs =
      value_flags host (resolve_profile host model q) value_knobs := by
    unfold value_knobs
    simp (disch := decide) only [value_flags, h]
  unfold launch_spec argv env tool_flags cluster_launch container_env_pairs overlay_files_pairs wrapper_overrides
  simp (disch := decide) only [h, hvalues]

theorem launch_spec_honored (h : ∀ k ∈ honored_profile_keys, p.lookup k = q.lookup k) :
    launch_spec host model p port = launch_spec host model q port := by
  apply launch_spec_of_get
  intro k hk
  unfold resolve_profile Profile.get
  rw [Profile.lookup_merge, Profile.lookup_merge, lookup_reject_nil_congr (h k hk)]

/-! ### One host, and a tool-call parser among the extra words -/

def knob_words (host : Host) (r : Profile) : Option (List String) := do
  let values ← value_flags host r value_knobs
  let extra ← host.words (r.get .extra_argv).wrap
  return values ++ bool_flag "--trust-remote-code" (r.get .trust_remote_code) ++
    thinking_flags (r.get .disable_thinking) ++ extra

def front (host : Host) (model : ModelRef) (port : Port) : List String :=
  ["serve", model.path, "--served-model-name", model.id, "--host", host.engine_bind_host, "--port", toString port]

theorem argv_knob_words (htools : tool_flags host model r = some []) :
    argv host model r port [] = (knob_words host r).map (front host model port ++ ·) := by
  unfold argv knob_words front
  rw [htools]
  cases value_flags host r value_knobs with
  | none => rfl
  | some values =>
    simp only [Option.bind_eq_bind, Option.bind_some, List.append_nil, Host.words_append, Host.words_str]
    cases host.words (r.get .extra_argv).wrap with
    | none => rfl
    | some extra => simp

theorem launch_spec_single {spec : LaunchSpec} (hnodes : (resolve_profile host model p).get .nnodes = .nil)
    (htools : tool_flags host model (resolve_profile host model p) = some []) :
    launch_spec host model p port = .ok spec ↔ spec.readiness = .http_get "/health" ∧
      (knob_words host (resolve_profile host model p)).map (front host model port ++ ·) = some spec.argv ∧
      env host model (resolve_profile host model p) [] = some spec.env := by
  obtain ⟨argv', env', readiness⟩ := spec
  have hone : cluster_launch host (resolve_profile host model p) port = .ok ([], []) := by
    unfold cluster_launch
    rw [hnodes]
  unfold launch_spec
  simp only [hone, argv_knob_words htools]
  cases (knob_words host (resolve_profile host model p)).map (front host model port ++ ·) with
  | none => simp
  | some ws =>
    cases env host model (resolve_profile host model p) [] with
    | none => simp
    | some e =>
      simp only [Except.ok.injEq, LaunchSpec.mk.injEq, Option.some.injEq, @eq_comm _ readiness]
      exact and_rotate.symm

def bare : Profile :=
  List.toAList [⟨.ctx, .int 1⟩, ⟨.image, .str "i"⟩, ⟨.extra_argv, .list [.str "--tool-call-parser"]⟩]

def telling : Key → Val
  | .ctx | .nnodes => .int 2
  | .trust_remote_code | .disable_thinking => .bool true
  | .extra_argv => .list [.str "--tool-call-parser", .str "b"]
  | .container_env | .overlay_files => .map [("a", .str "b")]
  | _ => .str "b"

def word_keys : List Key := [
  .ctx, .parallel, .extra_argv, .disable_thinking,
  .tensor_parallel_size, .gpu_memory_utilization, .dtype, .quantization,
  .kv_cache_dtype, .trust_remote_code]

def env_keys : List Key := [.container_env, .entrypoint, Key.cmd_prefix, .encoding_file, .overlay_files]

theorem words_telling (host : Host) (model : ModelRef) : word_keys.all (fun k =>
    knob_words host (resolve_profile host model bare) !=
      knob_words host (resolve_profile host model (bare.insert k (telling k)))) = true := by
  rfl

theorem names_telling (host : Host) (model : ModelRef) : env_keys.all (fun k =>
    (env host model (resolve_profile host model bare) []).map (List.map Prod.fst) !=
      (env host model (resolve_profile host model (bare.insert k (telling k))) []).map (List.map Prod.fst)) = true := by
  rfl

theorem tool_flags_eq_nil (h : ∃ ws, host.words (r.get .extra_argv).wrap = some ws ∧ "--tool-call-parser" ∈ ws) :
    tool_flags host model r = some [] := by
  obtain ⟨ws, hws, hmem⟩ := h
  simp [tool_flags, hws, hmem]

theorem tool_flags_telling (k : Key) :
    tool_flags host model (resolve_profile host model (bare.insert k (telling k))) = some [] := by
  apply tool_flags_eq_nil
  by_cases hk : k = .extra_argv
  · subst hk
    exact ⟨["--tool-call-parser", "b"], rfl, List.mem_cons_self ..⟩
  · have hget : Profile.get (bare.insert k (telling k)) .extra_argv = .list [.str "--tool-call-parser"] := by
      rw [Profile.get_insert, if_neg (Ne.symm hk)]
      rfl
    rw [resolve_get_of_ne (by rw [hget]; exact fun h => by cases h), hget]
    exact ⟨["--tool-call-parser"], rfl, List.mem_cons_self ..⟩

theorem nnodes_telling {k : Key} (hk : k ≠ .nnodes) :
    (resolve_profile host model (bare.insert k (telling k))).get .nnodes = .nil := by
  rw [resolve_nnodes, Profile.get_insert, if_neg (Ne.symm hk)]
  rfl

theorem nnodes_bare : (resolve_profile host model bare).get .nnodes = .nil := by
  rw [resolve_nnodes]
  rfl

theorem tool_flags_bare : tool_flags host model (resolve_profile host model bare) = some [] :=
  tool_flags_eq_nil ⟨["--tool-call-parser"], rfl, List.mem_cons_self ..⟩

theorem same_as_bare {k : Key} (hk : k ≠ .nnodes)
    (h : launch_spec host model bare port = launch_spec host model (bare.insert k (telling k)) port) :
    knob_words host (resolve_profile host model bare) =
        knob_words host (resolve_profile host model (bare.insert k (telling k))) ∧
      env host model (resolve_profile host model bare) [] =
        env host model (resolve_profile host model (bare.insert k (telling k))) [] := by
  obtain ⟨ws, hws⟩ : ∃ ws, knob_words host (resolve_profile host model bare) = some ws := ⟨_, rfl⟩
  obtain ⟨e, he⟩ : ∃ e, env host model (resolve_profile host model bare) [] = some e := ⟨_, rfl⟩
  have hok : launch_spec host model bare port = .ok ⟨front host model port ++ ws, e, .http_get "/health"⟩ :=
    (launch_spec_single nnodes_bare tool_flags_bare).mpr ⟨rfl, by rw [hws]; rfl, he⟩
  rw [h] at hok
  obtain ⟨-, hargv, henv⟩ := (launch_spec_single (nnodes_telling hk) (tool_flags_telling k)).mp hok
  obtain ⟨ws', hws', hfront⟩ := Option.map_eq_some_iff.mp hargv
  rw [hws, he, hws', henv, List.append_cancel_left hfront]
  exact ⟨rfl, rfl⟩

theorem env_image {cluster_env e : List (String × Val)} (h : env host model r cluster_env = some e) :
    e.head? = some ("VLLM_IMAGE", (r.get .image).or ((vllm_image host).or (.str ""))) := by
  simp only [env, Option.bind_eq_bind, Option.bind_eq_some_iff, Option.some.injEq] at h
  obtain ⟨_, _, _, _, rfl⟩ := h
  rfl

theorem env_length {cluster_env e : List (String × Val)} (h : env host model r cluster_env = some e) :
    3 + cluster_env.length ≤ e.length := by
  simp only [env, Option.bind_eq_bind, Option.bind_eq_some_iff, Option.some.injEq] at h
  obtain ⟨_, _, _, _, rfl⟩ := h
  simp only [List.length_append, List.length_cons, List.length_nil]
  omega

theorem nnodes_effective :
    launch_spec host model bare port ≠ launch_spec host model (bare.insert .nnodes (telling .nnodes)) port := by
  intro h
  obtain ⟨ws, hws⟩ : ∃ ws, knob_words host (resolve_profile host model bare) = some ws := ⟨_, rfl⟩
  obtain ⟨e, he, hlen⟩ : ∃ e, env host model (resolve_profile host model bare) [] = some e ∧ e.length = 3 := ⟨_, rfl, rfl⟩
  have hok : launch_spec host model bare port = .ok ⟨front host model port ++ ws, e, .http_get "/health"⟩ :=
    (launch_spec_single nnodes_bare tool_flags_bare).mpr ⟨rfl, by rw [hws]; rfl, he⟩
  rw [h] at hok
  have hnodes : (resolve_profile host model (bare.insert .nnodes (telling .nnodes))).get .nnodes = .int 2 := by
    rw [resolve_nnodes, Profile.get_insert, if_pos rfl]
    rfl
  unfold launch_spec at hok
  cases hc : host.vllm_cluster with
  | none => simp [cluster_launch, hnodes, hc] at hok
  | some cluster =>
    simp only [cluster_launch, hnodes, hc, if_neg (show ¬ (2 : Int) ≤ 1 by decide)] at hok
    split at hok
    · rename_i e' _ he'
      cases hok
      have := env_length he'
      simp only [hlen, cluster_env, List.length_append, List.length_cons] at this
      omega
    · cases hok

theorem image_effective :
    launch_spec host model bare port ≠ launch_spec host model (bare.insert .image (telling .image)) port := by
  intro h
  obtain ⟨e, he, himage⟩ : ∃ e, env host model (resolve_profile host model bare) [] = some e ∧
      e.head? = some ("VLLM_IMAGE", .str "i") := ⟨_, rfl, rfl⟩
  have hget : (resolve_profile host model (bare.insert .image (telling .image))).get .image = .str "b" := by
    rw [resolve_get_of_ne, Profile.get_insert, if_pos rfl]
    · rfl
    · rw [Profile.get_insert, if_pos rfl]
      exact fun h => by cases h
  rw [(same_as_bare (by decide) h).2] at he
  rw [env_image he, hget] at himage
  simp [Val.or] at himage

theorem reads_exactly (host : Host) (port : Port) :
    ReadsExactly honored_profile_keys fun model p => launch_spec host model p port where
  no_other _ _ _ h := launch_spec_honored h
  each k hk := by
    refine ⟨bare_model, bare, bare.insert k (telling k), fun k' hk' => (AList.lookup_insert_ne hk').symm, fun h => ?_⟩
    have hcases : ∀ k ∈ honored_profile_keys, k = .nnodes ∨ k = .image ∨ k ∈ word_keys ∨ k ∈ env_keys := by decide
    by_cases hnodes : k = .nnodes
    · subst hnodes
      exact nnodes_effective h
    obtain ⟨hwords, henv⟩ := same_as_bare hnodes h
    obtain rfl | rfl | hk | hk := hcases k hk
    · exact hnodes rfl
    · exact image_effective h
    · have := List.all_eq_true.mp (words_telling host bare_model) k hk
      rw [hwords] at this
      simp at this
    · have := List.all_eq_true.mp (names_telling host bare_model) k hk
      rw [henv] at this
      simp at this

end Vllm

/-! ## The warning -/

namespace Instance

theorem mem_ignored {engine : EngineName} {profile : Profile} {k : Key} :
    k ∈ ignored engine profile ↔ k ∈ profile ∧ k ∉ honored_profile_keys engine := by
  unfold ignored
  rw [List.mem_mergeSort, List.mem_filter, decide_eq_true_eq]
  rfl

variable {host : Host} {model : ModelRef} {p q : Profile} {port : Port} {daemon : Except Reason Unit}

theorem launch_spec_honored (h : ∀ k ∈ honored_profile_keys model.engine, p.lookup k = q.lookup k) :
    launch_spec host model p port = launch_spec host model q port := by
  unfold launch_spec
  cases he : model.engine with
  | llama_cpp =>
    rw [he] at h
    exact LlamaCpp.launch_spec_honored h
  | vllm =>
    rw [he] at h
    exact Vllm.launch_spec_honored h
  | other atom => rfl

/-- A start goes the same way whatever the keys hold that its warning names. -/
theorem init_of_ignored (h : ∀ k ∉ ignored model.engine p, p.lookup k = q.lookup k) :
    (init host model p port daemon).2 = (init host model q port daemon).2 := by
  have hspec : launch_spec host model p port = launch_spec host model q port :=
    launch_spec_honored fun k hk => h k fun hi => (mem_ignored.mp hi).2 hk
  unfold init
  rw [hspec]
  cases model.engine with
  | llama_cpp => rfl
  | vllm => rfl
  | other atom => rfl

/-- A start that logs nothing has an engine nobody knows, or a profile of honored keys. -/
theorem init_silent_iff : (init host model p port daemon).1 = none ↔
    (∃ atom, model.engine = .other atom) ∨ ∀ k ∈ p, k ∈ honored_profile_keys model.engine := by
  have hwarn : warn_unhonored_keys model p = none ↔ ∀ k ∈ p, k ∈ honored_profile_keys model.engine := by
    have hnil : ignored model.engine p = [] ↔ ∀ k ∈ p, k ∈ honored_profile_keys model.engine := by
      simp only [List.eq_nil_iff_forall_not_mem, mem_ignored, not_and, not_not]
    rw [← hnil]
    unfold warn_unhonored_keys
    cases ignored model.engine p with
    | nil => simp
    | cons k ks => simp
  unfold init
  cases he : model.engine with
  | llama_cpp => simpa [he] using hwarn
  | vllm => simpa [he] using hwarn
  | other atom => simp

/-- **Honored keys.** A launch of either engine reads the keys its adapter declares, all of them and no other, so that
the keys the warning names are those without effect. -/
theorem honored_profile_keys_exact (host : Host) (port : Port) :
    (ReadsExactly LlamaCpp.honored_profile_keys fun model p => LlamaCpp.launch_spec host model p port) ∧
    (ReadsExactly Vllm.honored_profile_keys fun model p => Vllm.launch_spec host model p port) ∧
    ∀ (profile : Profile) (k : Key),
      (k ∈ ignored .llama_cpp profile ↔
        k ∈ profile ∧ ¬ Effective (fun model p => LlamaCpp.launch_spec host model p port) k) ∧
      (k ∈ ignored .vllm profile ↔ k ∈ profile ∧ ¬ Effective (fun model p => Vllm.launch_spec host model p port) k) := by
  have hllama := LlamaCpp.reads_exactly host port
  have hvllm := Vllm.reads_exactly host port
  refine ⟨hllama, hvllm, fun profile k => ?_⟩
  rw [mem_ignored, mem_ignored, ← hllama.mem_iff k, ← hvllm.mem_iff k]
  exact ⟨Iff.rfl, Iff.rfl⟩

end Instance

end AiroAgent
