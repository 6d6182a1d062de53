import AiroAgent.Vllm
import AiroAgent.VllmSlot

/-!
# What a launch carries

When `launch_spec` gives a command at all, which words stand on its command line
behind the slot port, and which variables the wrapper finds set.
-/

namespace AiroAgent.Vllm

variable {host : Host} {model : ModelRef} {profile : Profile} {port : Port}

/-! ## The effective profile -/

theorem resolve_get_of_ne {k : Key} (h : profile.get k ≠ .nil) :
    (resolve_profile host model profile).get k = profile.get k := by
  have hne : profile.lookup k ≠ some .nil := fun hl => h (by simp [Profile.get, hl])
  unfold resolve_profile Profile.get
  rw [Profile.lookup_merge, Profile.lookup_reject_nil_of_ne hne]
  cases hl : profile.lookup k with
  | none => exact absurd (by simp [Profile.get, hl]) h
  | some v => rfl

theorem resolve_get_of_nil {k : Key} (h : profile.get k = .nil) :
    (resolve_profile host model profile).get k = (default_profile host model).get k := by
  have hnone : profile.reject_nil.lookup k = none := by
    by_cases hl : profile.lookup k = some .nil
    · exact Profile.lookup_reject_nil hl
    · rw [Profile.lookup_reject_nil_of_ne hl]
      cases hv : profile.lookup k with
      | none => rfl
      | some v =>
        have hnil : v = .nil := by simpa [Profile.get, hv] using h
        exact absurd (hnil ▸ hv) hl
  unfold resolve_profile Profile.get
  rw [Profile.lookup_merge, hnone, Option.none_or]

theorem resolve_nnodes : (resolve_profile host model profile).get .nnodes = profile.get .nnodes := by
  by_cases h : profile.get .nnodes = .nil
  · rw [resolve_get_of_nil h, h, default_profile, Profile.get, AList.lookup_to_alist]
    rfl
  · exact resolve_get_of_ne h

/-! ## The words -/

theorem flag_of_ne {k : String} {v : Val} (h : v ≠ .nil) :
    flag host k v = (host.to_string v).bind fun w => some [k, w] := by
  cases v with
  | nil => exact absurd rfl h
  | _ => rfl

theorem flag_eq_some {k : String} {v : Val} {ws : List String} (h : flag host k v = some ws) :
    ws = [] ∨ ∃ w, host.to_string v = some w ∧ ws = [k, w] := by
  by_cases hv : v = .nil
  · subst hv
    exact .inl (Option.some.inj h).symm
  · rw [flag_of_ne hv] at h
    obtain ⟨w, hw, he⟩ := Option.bind_eq_some_iff.mp h
    exact .inr ⟨w, hw, (Option.some.inj he).symm⟩

theorem flag_ne_none {k : String} {v : Val} : flag host k v ≠ none ↔ host.to_string v ≠ none := by
  by_cases hv : v = .nil
  · subst hv
    simp [flag, Host.to_string, Val.to_string]
  · rw [flag_of_ne hv]
    cases host.to_string v <;> simp

theorem mem_value_flags : ∀ {knobs : List (String × Key)} {ws : List String}, value_flags host profile knobs = some ws →
    ∀ w ∈ ws, ∃ knob ∈ knobs, w = knob.1 ∨ host.to_string (profile.get knob.2) = some w
  | [], ws, h, w, hw => by
    cases Option.some.inj h
    cases hw
  | (k, key) :: knobs, ws, h, w, hw => by
    simp only [value_flags, Option.bind_eq_bind, Option.bind_eq_some_iff, Option.some.injEq] at h
    obtain ⟨first, hfirst, others, hothers, rfl⟩ := h
    rcases List.mem_append.mp hw with hw | hw
    · refine ⟨(k, key), List.mem_cons_self, ?_⟩
      rcases flag_eq_some hfirst with rfl | ⟨v, hv, rfl⟩
      · cases hw
      · simp only [List.mem_cons, List.not_mem_nil, or_false] at hw
        rcases hw with rfl | rfl
        · exact .inl rfl
        · exact .inr hv
    · obtain ⟨knob, hknob, he⟩ := mem_value_flags hothers w hw
      exact ⟨knob, List.mem_cons_of_mem _ hknob, he⟩

theorem value_flags_ne_none : ∀ {knobs : List (String × Key)},
    value_flags host profile knobs ≠ none ↔ ∀ knob ∈ knobs, host.to_string (profile.get knob.2) ≠ none
  | [] => by simp [value_flags]
  | (k, key) :: knobs => by
    have ih : value_flags host profile knobs ≠ none ↔ _ := value_flags_ne_none
    rw [List.forall_mem_cons, ← ih, ← flag_ne_none (k := k)]
    cases h : flag host k (profile.get key) <;> cases h' : value_flags host profile knobs <;>
      simp [value_flags, h, h']

theorem tool_flags_ne_none :
    tool_flags host model profile ≠ none ↔ host.words (profile.get .extra_argv).wrap ≠ none := by
  cases h : host.words (profile.get .extra_argv).wrap with
  | none => simp [tool_flags, h]
  | some extra =>
    simp only [tool_flags, h, Option.bind_eq_bind, Option.bind_some]
    split
    · simp
    · split <;> simp

theorem port_flag_not_mem_tool_flags {ws : List String} (h : tool_flags host model profile = some ws) : "--port" ∉ ws := by
  simp only [tool_flags, Option.bind_eq_bind, Option.bind_eq_some_iff] at h
  obtain ⟨extra, -, h⟩ := h
  split at h
  · cases h
    simp
  · split at h
    · next parser hparser =>
      cases h
      have hp : parser = "qwen3_xml" ∨ parser = "hermes" := by
        obtain ⟨template, -, ht⟩ := Option.bind_eq_some_iff.mp hparser
        simp only [tool_parser_for_template] at ht
        split at ht
        · exact .inl (Option.some.inj ht).symm
        · split at ht
          · exact .inr (Option.some.inj ht).symm
          · cases ht
      have hr : "--port" ∉ reasoning_parser_flags model extra := by
        rw [reasoning_parser_flags]
        split
        · split
          · split <;> simp
          · simp
        · simp
      rcases hp with rfl | rfl <;> simp [hr]
    · cases h
      simp

theorem argv_eq_some {cluster_argv : List Val} {ws : List String} :
    argv host model profile port cluster_argv = some ws ↔
      ∃ values tools cluster extra,
        value_flags host profile value_knobs = some values ∧ tool_flags host model profile = some tools ∧
        host.words cluster_argv = some cluster ∧ host.words (profile.get .extra_argv).wrap = some extra ∧
        ws = ["serve", model.path, "--served-model-name", model.id, "--host", host.engine_bind_host] ++
          "--port" :: toString port :: (values ++ bool_flag "--trust-remote-code" (profile.get .trust_remote_code) ++
            thinking_flags (profile.get .disable_thinking) ++ tools ++ cluster ++ extra) := by
  simp only [argv, Host.words_append, Host.words_str, Option.bind_eq_bind, Option.bind_eq_some_iff, Option.some.injEq]
  constructor
  · intro h
    obtain ⟨values, hv, tools, ht, front, ⟨plain, rfl, cluster, hc, rfl⟩, extra, he, rfl⟩ := h
    exact ⟨values, tools, cluster, extra, hv, ht, hc, he, by simp⟩
  · intro h
    obtain ⟨values, tools, cluster, extra, hv, ht, hc, he, rfl⟩ := h
    exact ⟨values, hv, tools, ht, _, ⟨_, rfl, cluster, hc, rfl⟩, extra, he, by simp⟩

/-! ## The slot port on the command line -/

/-- No word that a value of the effective profile or the cluster config puts on the command line is `--port`. -/
structure KeepsPort (host : Host) (profile : Profile) : Prop where
  values : ∀ knob ∈ value_knobs, host.to_string (profile.get knob.2) ≠ some "--port"
  extra : ∀ v ∈ (profile.get .extra_argv).wrap, host.to_string v ≠ some "--port"
  master_addr : ∀ cluster, host.vllm_cluster = some cluster → cluster.master_ip ≠ "--port"

theorem toString_ne_port_flag (n : Int) : toString n ≠ "--port" :=
  Text.toString_ne (c := 'p') (by decide) (by decide) (by decide)

theorem cluster_argv_words {cluster : ClusterConfig} {n : Int} :
    host.words (cluster_argv cluster n port) = some ["--nnodes", toString n, "--node-rank", "0", "--master-addr",
      cluster.master_ip, "--master-port", toString (port + 10000), "--distributed-executor-backend", "mp"] := rfl

theorem slot_port_argv {cluster : ClusterConfig} {n : Int} {ws : List String} (h : KeepsPort host profile)
    (hc : host.vllm_cluster = some cluster)
    (hw : argv host model profile port (cluster_argv cluster n port) = some ws) :
    VllmSlot.slot_port ws = toString port := by
  obtain ⟨values, tools, cluster_words, extra, hv, ht, hcw, he, rfl⟩ := argv_eq_some.mp hw
  have hvalues : "--port" ∉ values := by
    intro hm
    obtain ⟨knob, hknob, hk | hk⟩ := mem_value_flags hv _ hm
    · have hflags : "--port" ∉ value_knobs.map Prod.fst := by decide
      exact hflags (hk ▸ List.mem_map_of_mem hknob)
    · exact h.values knob hknob hk
  have htrust : "--port" ∉ bool_flag "--trust-remote-code" (profile.get .trust_remote_code) := by
    rw [bool_flag.eq_def]
    split <;> simp
  have hthinking : "--port" ∉ thinking_flags (profile.get .disable_thinking) := by
    rw [thinking_flags.eq_def]
    split <;> simp
  have hcluster : "--port" ∉ cluster_words := by
    rw [cluster_argv_words] at hcw
    cases hcw
    simp [-Int.toString_eq_repr, Ne.symm (toString_ne_port_flag _), Ne.symm (h.master_addr cluster hc)]
  have hextra : "--port" ∉ extra := by
    intro hm
    obtain ⟨v, hv, hs⟩ := Host.mem_words he _ hm
    exact h.extra v hv hs
  refine VllmSlot.slot_port_of_last (toString_ne_port_flag port) ?_
  simp only [List.mem_append, not_or]
  exact ⟨⟨⟨⟨⟨hvalues, htrust⟩, hthinking⟩, port_flag_not_mem_tool_flags ht⟩, hcluster⟩, hextra⟩

/-! ## The environment -/

def entries : Val → List (String × Val)
  | .map es => es
  | _ => []

theorem entry_lines_ne_none {name sep : String} {v : Val} :
    entry_lines host name sep v ≠ none ↔ ∀ e ∈ entries v, host.to_string e.2 ≠ none := by
  rw [entry_lines.eq_def]
  split
  · next e es =>
    have hwords : host.words ((e :: es).map Prod.snd) ≠ none ↔ ∀ x ∈ e :: es, host.to_string x.2 ≠ none := by
      rw [Host.words_ne_none, List.forall_mem_map]
    rw [entries, ← hwords]
    cases host.words ((e :: es).map Prod.snd) <;> simp
  · next h =>
    have hnil : entries v = [] := by
      cases v with
      | map es =>
        cases es with
        | nil => rfl
        | cons e es => exact absurd rfl (h e es)
      | _ => rfl
    simp [hnil]

theorem mem_entry_lines {name sep : String} {v : Val} {pairs : List (String × Val)}
    (h : entry_lines host name sep v = some pairs) : ∀ p ∈ pairs, p.1 = name ∧ p.2.env_value = true := by
  intro p hp
  rw [entry_lines.eq_def] at h
  split at h
  · simp only [Option.bind_eq_bind, Option.bind_eq_some_iff, Option.some.injEq] at h
    obtain ⟨values, -, rfl⟩ := h
    obtain rfl := List.mem_singleton.mp hp
    exact ⟨rfl, rfl⟩
  · cases h
    cases hp

theorem mem_wrapper_overrides {p : String × Val} (h : p ∈ wrapper_overrides profile) :
    p.1 ∈ ["AIRO_VLLM_ENTRYPOINT", "AIRO_VLLM_CMD_PREFIX", "AIRO_VLLM_ENCODING_FILE"] := by
  have hp := (List.mem_filter.mp h).1
  simp only [List.mem_cons, List.not_mem_nil, or_false] at hp
  rcases hp with rfl | rfl | rfl <;> simp

theorem env_eq_some {cluster_env vars : List (String × Val)} :
    env host model profile cluster_env = some vars ↔
      ∃ container_env overlay_files,
        container_env_pairs host profile = some container_env ∧ overlay_files_pairs host profile = some overlay_files ∧
        vars = [("VLLM_IMAGE", (profile.get .image).or ((vllm_image host).or (.str ""))),
            ("AIRO_AGENT_MODEL_ROOT", model_root host), ("AIRO_VLLM_SERVED_MODEL", .str model.id)] ++
          cluster_env ++ container_env ++ overlay_files ++ wrapper_overrides profile := by
  simp only [env, Option.bind_eq_bind, Option.bind_eq_some_iff, Option.some.injEq]
  constructor
  · intro h
    obtain ⟨ce, hce, of, hof, rfl⟩ := h
    exact ⟨ce, of, hce, hof, rfl⟩
  · intro h
    obtain ⟨ce, of, hce, hof, rfl⟩ := h
    exact ⟨ce, hce, of, hof, rfl⟩

/-! ## When there is a launch -/

/-- The engine process is started with these words and these variables. -/
def Launches (host : Host) (model : ModelRef) (profile : Profile) (port : Port) (args : List String)
    (vars : List (String × String)) : Prop :=
  ∃ spec, launch_spec host model profile port = .ok spec ∧ spec.argv = args ∧ port_env spec.env = some vars

theorem launches_iff {cluster_argv : List Val} {cluster_env : List (String × Val)} {args : List String}
    {vars : List (String × String)}
    (h : cluster_launch host (resolve_profile host model profile) port = .ok (cluster_argv, cluster_env)) :
    Launches host model profile port args vars ↔
      argv host model (resolve_profile host model profile) port cluster_argv = some args ∧
        ∃ pairs, env host model (resolve_profile host model profile) cluster_env = some pairs ∧
          port_env pairs = some vars := by
  simp only [Launches, launch_spec, h]
  constructor
  · intro hx
    obtain ⟨spec, hspec, rfl, hvars⟩ := hx
    split at hspec
    · next args' pairs hargs hpairs =>
      obtain rfl := Except.ok.inj hspec
      exact ⟨hargs, pairs, hpairs, hvars⟩
    · cases hspec
  · intro hx
    obtain ⟨hargs, pairs, hpairs, hvars⟩ := hx
    exact ⟨⟨args, pairs, .http_get "/health"⟩, by simp only [hargs, hpairs], rfl, hvars⟩

open Key in
def wrapper_knobs : List Key := [entrypoint, cmd_prefix, encoding_file]

/-- Every value that goes into a word renders, and every value that goes into the environment as it is
is a string where it is there at all. -/
structure Renders (host : Host) (profile : Profile) : Prop where
  values : ∀ knob ∈ value_knobs, host.to_string (profile.get knob.2) ≠ none
  extra : ∀ v ∈ (profile.get .extra_argv).wrap, host.to_string v ≠ none
  container_env : ∀ e ∈ entries (profile.get .container_env), host.to_string e.2 ≠ none
  overlay_files : ∀ e ∈ entries (profile.get .overlay_files), host.to_string e.2 ≠ none
  image : ((profile.get .image).or .nil).env_value = true
  overrides : ∀ k ∈ wrapper_knobs, (profile.get k).env_value = true

theorem argv_ne_none {cluster_argv : List Val} (hc : host.words cluster_argv ≠ none) :
    argv host model profile port cluster_argv ≠ none ↔
      (∀ knob ∈ value_knobs, host.to_string (profile.get knob.2) ≠ none) ∧
        ∀ v ∈ (profile.get .extra_argv).wrap, host.to_string v ≠ none := by
  rw [← value_flags_ne_none, ← Host.words_ne_none]
  simp only [Option.ne_none_iff_exists', argv_eq_some]
  obtain ⟨cluster, hcluster⟩ := Option.ne_none_iff_exists'.mp hc
  constructor
  · intro h
    obtain ⟨ws, values, tools, cluster', extra, hv, ht, hcl, he, -⟩ := h
    exact ⟨⟨values, hv⟩, extra, he⟩
  · intro h
    obtain ⟨⟨values, hv⟩, extra, he⟩ := h
    have htools : tool_flags host model profile ≠ none := tool_flags_ne_none.mpr (by simp [he])
    obtain ⟨tools, ht⟩ := Option.ne_none_iff_exists'.mp htools
    exact ⟨_, values, tools, cluster, extra, hv, ht, hcluster, he, rfl⟩

theorem image_env_value : ((profile.get .image).or ((vllm_image host).or (.str ""))).env_value =
    ((profile.get .image).or .nil).env_value := by
  have hhost : ((vllm_image host).or (.str "")).env_value = true := by
    rw [vllm_image]
    cases host.vllm_image <;> rfl
  cases profile.get .image with
  | nil => exact hhost
  | bool b =>
    cases b
    · exact hhost
    · rfl
  | _ => rfl

open Key in
theorem wrapper_overrides_env_value :
    (∀ p ∈ wrapper_overrides profile, p.2.env_value = true) ↔ ∀ k ∈ wrapper_knobs, (profile.get k).env_value = true := by
  have hprefix : ∀ v : Val, (cmd_prefix_value v).env_value = v.env_value := by
    intro v
    rw [cmd_prefix_value.eq_def]
    split <;> rfl
  -- the pairs filtered out are nil, which the environment takes
  have hfilter : (∀ p ∈ wrapper_overrides profile, p.2.env_value = true) ↔
      ∀ p ∈ [("AIRO_VLLM_ENTRYPOINT", profile.get .entrypoint),
        ("AIRO_VLLM_CMD_PREFIX", cmd_prefix_value (profile.get cmd_prefix)),
        ("AIRO_VLLM_ENCODING_FILE", profile.get .encoding_file)], p.2.env_value = true := by
    rw [wrapper_overrides, List.forall_mem_filter]
    refine forall₂_congr fun p _ => ?_
    obtain ⟨k, v⟩ := p
    cases v <;> simp [Val.env_value]
  rw [hfilter]
  simp [wrapper_knobs, hprefix]

theorem env_launches {cluster_env : List (String × Val)} (hc : ∀ p ∈ cluster_env, p.2.env_value = true) :
    (∃ pairs, env host model profile cluster_env = some pairs ∧ port_env pairs ≠ none) ↔
      (∀ e ∈ entries (profile.get .container_env), host.to_string e.2 ≠ none) ∧
        (∀ e ∈ entries (profile.get .overlay_files), host.to_string e.2 ≠ none) ∧
        ((profile.get .image).or .nil).env_value = true ∧ ∀ k ∈ wrapper_knobs, (profile.get k).env_value = true := by
  have hroot : (model_root host).env_value = true := by
    rw [model_root.eq_def]
    split <;> rfl
  have hcontainer : container_env_pairs host profile ≠ none ↔ _ := entry_lines_ne_none
  have hoverlay : overlay_files_pairs host profile ≠ none ↔ _ := entry_lines_ne_none
  have himg : ((profile.get .image).or ((vllm_image host).or (.str ""))).env_value = _ := image_env_value
  rw [← hcontainer, ← hoverlay, ← himg, ← wrapper_overrides_env_value]
  constructor
  · intro h
    obtain ⟨pairs, hpairs, hport⟩ := h
    obtain ⟨ce, of, hce, hof, rfl⟩ := env_eq_some.mp hpairs
    have hall := port_env_ne_none.mp hport
    exact ⟨by simp [hce], by simp [hof], hall _ List.mem_cons_self, fun p hp => hall p (List.mem_append_right _ hp)⟩
  · intro h
    obtain ⟨hce, hof, himage, hover⟩ := h
    obtain ⟨ce, hce⟩ := Option.ne_none_iff_exists'.mp hce
    obtain ⟨of, hof⟩ := Option.ne_none_iff_exists'.mp hof
    refine ⟨_, env_eq_some.mpr ⟨ce, of, hce, hof, rfl⟩, port_env_ne_none.mpr fun p hp => ?_⟩
    simp only [List.mem_append, List.mem_cons, List.not_mem_nil, or_false] at hp
    rcases hp with ((((rfl | rfl | rfl) | hp) | hp) | hp) | hp
    · exact himage
    · exact hroot
    · rfl
    · exact hc p hp
    · exact (mem_entry_lines hce p hp).2
    · exact (mem_entry_lines hof p hp).2
    · exact hover p hp

theorem launches_iff_renders {cluster_argv : List Val} {cluster_env : List (String × Val)}
    (h : cluster_launch host (resolve_profile host model profile) port = .ok (cluster_argv, cluster_env))
    (hwords : host.words cluster_argv ≠ none) (hvalues : ∀ p ∈ cluster_env, p.2.env_value = true) :
    (∃ args vars, Launches host model profile port args vars) ↔ Renders host (resolve_profile host model profile) := by
  simp only [launches_iff h]
  constructor
  · intro hx
    obtain ⟨args, vars, hargs, pairs, hpairs, hvars⟩ := hx
    obtain ⟨values, extra⟩ := (argv_ne_none hwords).mp (Option.ne_none_iff_exists'.mpr ⟨args, hargs⟩)
    obtain ⟨container_env, overlay_files, image, overrides⟩ :=
      (env_launches hvalues).mp ⟨pairs, hpairs, by simp [hvars]⟩
    exact ⟨values, extra, container_env, overlay_files, image, overrides⟩
  · intro hr
    obtain ⟨args, hargs⟩ := Option.ne_none_iff_exists'.mp ((argv_ne_none hwords).mpr ⟨hr.values, hr.extra⟩)
    obtain ⟨pairs, hpairs, hport⟩ :=
      (env_launches hvalues).mpr ⟨hr.container_env, hr.overlay_files, hr.image, hr.overrides⟩
    obtain ⟨vars, hvars⟩ := Option.ne_none_iff_exists'.mp hport
    exact ⟨args, vars, hargs, pairs, hpairs, hvars⟩

end AiroAgent.Vllm
