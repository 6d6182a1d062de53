import AiroAgent.NullKnob

/-!
# Contract A

`ctx` is the window of one request, and `-c` what `--parallel` sequences share:
when a llama.cpp launch asks for exactly `ctx` times as many sequences as it
sets up.
-/

namespace AiroAgent.LlamaCpp

variable {host : Host} {model : ModelRef} {profile : Profile} {port : Port} {kvs : List (String × Val)}
  {k x : String} {k' : Key} {ws rest : List String}

/-! ## Reading a command line -/

/-- The flags with their values: a value is the word behind its flag, and `--jinja` takes none. -/
def options : List String → List (String × String)
  | [] => []
  | "--jinja" :: ws => options ws
  | [_] => []
  | flag :: value :: ws => (flag, value) :: options ws

theorem options_cons (h : k ≠ "--jinja") : options (k :: x :: ws) = (k, x) :: options ws := by
  rw [options.eq_4]
  exact h

theorem mem_of_mem_options (h : (k, x) ∈ options ws) : k ∈ ws := by
  induction ws using options.induct with
  | case1 => cases h
  | case2 ws ih => exact List.mem_cons_of_mem _ (ih h)
  | case3 w hw => 
    rw [options.eq_3 _ hw] at h
    cases h
  | case4 flag value ws hflag ih =>
    rw [options_cons hflag] at h
    obtain he | h := List.mem_cons.mp h
    · cases he
      exact List.mem_cons_self
    · exact List.mem_cons_of_mem _ (List.mem_cons_of_mem _ (ih h))

theorem flag_of_given {v : Val} (h : v.given = true) : flag host k v = (host.to_string v).map fun s => [k, s] := by
  cases v with
  | nil => cases h
  | _ => cases hs : host.to_string _ <;> simp [flag, hs]

theorem mem_options_flags (hk : ∀ kv ∈ kvs, kv.1 ≠ "--jinja") (h : flags host kvs = some ws) :
    (k, x) ∈ options (ws ++ rest) ↔
      (∃ v, (k, v) ∈ kvs ∧ v.given = true ∧ host.to_string v = some x) ∨ (k, x) ∈ options rest := by
  induction kvs generalizing ws with
  | nil =>
    cases h
    simp
  | cons kv kvs ih =>
    obtain ⟨k', v⟩ := kv
    rw [List.forall_mem_cons] at hk
    simp only [flags, Option.bind_eq_bind, Option.bind_eq_some_iff, Option.some.injEq] at h
    obtain ⟨ws', hflag, wss, hrest, rfl⟩ := h
    rw [List.append_assoc]
    cases hg : v.given with
    | false =>
      have hnil : ws' = [] := by
        cases v <;> cases hg
        exact (Option.some.inj hflag).symm
      rw [hnil, List.nil_append, ih hk.2 hrest]
      grind
    | true =>
      rw [flag_of_given hg, Option.map_eq_some_iff] at hflag
      obtain ⟨s, hs, rfl⟩ := hflag
      rw [List.cons_append, List.cons_append, List.nil_append, options_cons hk.1, List.mem_cons, ih hk.2 hrest]
      grind

theorem flags_ne_none : flags host kvs ≠ none ↔ ∀ kv ∈ kvs, host.to_string kv.2 ≠ none := by
  induction kvs with
  | nil => simp [flags]
  | cons kv kvs ih =>
    obtain ⟨k, v⟩ := kv
    have hflag : flag host k v ≠ none ↔ host.to_string v ≠ none := by
      cases hg : v.given with
      | false =>
        cases v <;> cases hg
        simp [flag, Host.to_string, Val.to_string]
      | true => simp [flag_of_given hg]
    rw [List.forall_mem_cons, ← ih, ← hflag]
    cases h : flag host k v <;> cases h' : flags host kvs <;> simp [flags, h, h']

/-! ## The words of a launch -/

def front_flags (host : Host) (model : ModelRef) (profile : Profile) (total : Val) : List (String × Val) := [
  ("--mmproj", (profile.get .mmproj).or (mmproj_value host model.path)),
  ("-c", total),
  ("-ngl", profile.get .ngl),
  ("-ncmoe", profile.get .n_cpu_moe),
  ("--flash-attn", profile.get .flash_attn),
  ("--cache-type-k", profile.get .cache_type_k),
  ("--cache-type-v", profile.get .cache_type_v),
  ("--spec-type", profile.get .spec_type),
  ("--parallel", profile.get .parallel)]

def back_flags (profile : Profile) : List (String × Val) := [
  ("--chat-template", profile.get .chat_template),
  ("--reasoning-budget", reasoning_budget profile),
  ("--reasoning-format", profile.get .reasoning_format),
  ("--dry-multiplier", profile.get .dry_multiplier),
  ("--temp", profile.get .temperature),
  ("--top-p", profile.get .top_p),
  ("--repeat-penalty", profile.get .repeat_penalty),
  ("--presence-penalty", profile.get .presence_penalty),
  ("--frequency-penalty", profile.get .frequency_penalty)]

theorem argv_eq : argv host model profile port = (do
    let total ← total_ctx host profile
    let front ← flags host (front_flags host model profile total)
    let back ← flags host (back_flags profile)
    let extra ← host.words (profile.get .extra_argv).wrap
    some (["-m", model.path, "--host", host.engine_bind_host, "--port", toString port] ++ front ++
      bool_flag "--jinja" (profile.get .jinja) ++ back ++ thinking_flags (profile.get .disable_thinking) ++ extra)) := by
  simp only [argv, Host.words_append, Host.words_str, front_flags, back_flags]
  rfl

theorem options_jinja {v : Val} : options (bool_flag "--jinja" v ++ rest) = options rest := by
  unfold bool_flag
  split
  · rfl
  · rfl

theorem mem_options_thinking {v : Val} (h : k ≠ "--reasoning") :
    (k, x) ∈ options (thinking_flags v ++ rest) ↔ (k, x) ∈ options rest := by
  unfold thinking_flags
  split
  · simp [options_cons, h]
  · rfl

/-- What a flag is given, when `extra_argv` does not have it. -/
theorem mem_options_argv {total : Val} {front back extra : List String}
    (hfront : flags host (front_flags host model profile total) = some front)
    (hback : flags host (back_flags profile) = some back)
    (hk : k ∉ ["-m", "--host", "--port", "--reasoning"]) (hextra : k ∉ extra) :
    (k, x) ∈ options (["-m", model.path, "--host", host.engine_bind_host, "--port", toString port] ++ front ++
      bool_flag "--jinja" (profile.get .jinja) ++ back ++ thinking_flags (profile.get .disable_thinking) ++ extra) ↔
      ∃ v, (k, v) ∈ front_flags host model profile total ++ back_flags profile ∧ v.given = true ∧
        host.to_string v = some x := by
  simp only [List.mem_cons, List.not_mem_nil, or_false, not_or] at hk
  obtain ⟨hm, hhost, hport, hreasoning⟩ := hk
  have hnone : (k, x) ∉ options extra := fun h => hextra (mem_of_mem_options h)
  have hfronts : ∀ kv ∈ front_flags host model profile total, kv.1 ≠ "--jinja" := by simp [front_flags]
  have hbacks : ∀ kv ∈ back_flags profile, kv.1 ≠ "--jinja" := by simp [back_flags]
  simp only [List.append_assoc, List.cons_append, List.nil_append]
  rw [options_cons (by decide), options_cons (by decide), options_cons (by decide)]
  simp only [List.mem_cons, Prod.mk.injEq, hm, hhost, hport, false_and, false_or]
  rw [mem_options_flags hfronts hfront, options_jinja, mem_options_flags hbacks hback, mem_options_thinking hreasoning]
  simp only [hnone, or_false, List.mem_append, ← exists_or, or_and_right]

/-! ## When a launch fails -/

def front_keys : List Key :=
  [.mmproj, .ngl, .n_cpu_moe, .flash_attn, .cache_type_k, .cache_type_v, .spec_type, .parallel]

def back_keys : List Key := [
  .chat_template, .reasoning_format, .dry_multiplier,
  .temperature, .top_p, .repeat_penalty, .presence_penalty, .frequency_penalty]

/-- `ctx * (parallel || 1)` is a number with a text. -/
def multiplies (host : Host) (ctx : Int) (parallel : Val) : Bool :=
  match parallel.or (.int 1) with
  | .int _ => true
  | .float m e => ((host.mul_float ctx m e).bind host.to_string).isSome
  | _ => false

/-- Something of the effective profile `profile` makes the launch raise. -/
def Raises (host : Host) (profile : Profile) : Prop :=
  (∃ ctx, profile.get .ctx = .int ctx ∧ multiplies host ctx (profile.get .parallel) = false) ∨
    (∃ k ∈ front_keys ++ back_keys, host.to_string (profile.get k) = none) ∨
    host.to_string (reasoning_budget profile) = none ∨
    ∃ v ∈ (profile.get .extra_argv).wrap, host.to_string v = none

theorem total_ctx_word : (∃ total, total_ctx host profile = some total ∧ host.to_string total ≠ none) ↔
    ¬ ∃ ctx, profile.get .ctx = .int ctx ∧ multiplies host ctx (profile.get .parallel) = false := by
  unfold total_ctx multiplies
  cases profile.get .ctx with
  | int ctx =>
    cases (profile.get .parallel).or (.int 1) with
    | float m e => cases h : host.mul_float ctx m e <;> simp [h, Option.ne_none_iff_isSome]
    | _ => simp [Host.to_string, Val.to_string]
  | _ => simp [Host.to_string, Val.to_string]

theorem mmproj_word {v : Val} {path : String} :
    host.to_string (v.or (mmproj_value host path)) ≠ none ↔ host.to_string v ≠ none := by
  have hvalue : host.to_string (mmproj_value host path) ≠ none := by
    unfold mmproj_value
    split <;> simp [Host.to_string, Val.to_string]
  cases v with
  | nil => simpa [Val.or, Host.to_string, Val.to_string] using hvalue
  | bool b =>
    cases b with
    | false => simpa [Val.or, Host.to_string, Val.to_string] using hvalue
    | true => rfl
  | _ => rfl

theorem front_flags_ne_none {total : Val} : flags host (front_flags host model profile total) ≠ none ↔
    host.to_string total ≠ none ∧ ∀ k ∈ front_keys, host.to_string (profile.get k) ≠ none := by
  rw [flags_ne_none]
  simp only [front_flags, front_keys, List.forall_mem_cons, List.not_mem_nil, false_imp_iff, implies_true, and_true, mmproj_word]
  exact and_left_comm

theorem back_flags_ne_none : flags host (back_flags profile) ≠ none ↔
    host.to_string (reasoning_budget profile) ≠ none ∧ ∀ k ∈ back_keys, host.to_string (profile.get k) ≠ none := by
  rw [flags_ne_none]
  simp only [back_flags, back_keys, List.forall_mem_cons, List.not_mem_nil, false_imp_iff, implies_true, and_true]
  exact and_left_comm

theorem argv_ne_none : argv host model profile port ≠ none ↔ ¬ Raises host profile := by
  have hargv : argv host model profile port ≠ none ↔
      (∃ total, total_ctx host profile = some total ∧ flags host (front_flags host model profile total) ≠ none) ∧
        flags host (back_flags profile) ≠ none ∧ host.words (profile.get .extra_argv).wrap ≠ none := by
    rw [argv_eq]
    cases total_ctx host profile with
    | none => simp
    | some total =>
      cases h : flags host (front_flags host model profile total) <;> cases flags host (back_flags profile) <;>
        cases host.words (profile.get .extra_argv).wrap <;> simp [h]
  have hraises : ¬ Raises host profile ↔ (∃ total, total_ctx host profile = some total ∧ host.to_string total ≠ none) ∧
      (∀ k ∈ front_keys ++ back_keys, host.to_string (profile.get k) ≠ none) ∧
      host.to_string (reasoning_budget profile) ≠ none ∧
      ∀ v ∈ (profile.get .extra_argv).wrap, host.to_string v ≠ none := by
    rw [total_ctx_word]
    simp [Raises]
  rw [hargv, hraises, back_flags_ne_none, Host.words_ne_none, List.forall_mem_append]
  simp only [front_flags_ne_none, ← and_assoc, exists_and_right]
  tauto

/-! ## The budget -/

/-- The sequences a profile asks for. -/
def asked_parallel (profile : Profile) : Val := (profile.lookup .parallel).getD (.int 1)

/-- `-c` holds `ctx` for each of the sequences `--parallel` sets up. -/
def ContractA (ctx : Val) (argv : List String) : Prop :=
  ∃ c C P : Int, ("-c", toString C) ∈ options argv ∧ ("--parallel", toString P) ∈ options argv ∧
    1 ≤ P ∧ ctx.eq (.int c) = true ∧ C = c * P

def Sized (profile : Profile) : Prop :=
  ∃ c n : Int, profile.get .ctx = .int c ∧ asked_parallel profile = .int n ∧ 1 ≤ n

theorem resolve_parallel : (resolve_profile host model profile).get .parallel = asked_parallel profile := by
  rw [resolve_profile, Profile.get, Profile.lookup_merge, asked_parallel]
  cases profile.lookup .parallel <;> rfl

theorem resolve_get (h : (default_profile host model).lookup k' = none) :
    (resolve_profile host model profile).get k' = profile.get k' := by
  rw [resolve_profile, Profile.get, Profile.lookup_merge, h, Option.or_none, Profile.get]

/-- What a flag of a launch is given, when `extra_argv` does not have it. -/
theorem mem_options_launch {launch : LaunchSpec} (h : launch_spec host model profile port = .ok launch)
    (hk : k ∉ ["-m", "--host", "--port", "--reasoning"])
    (hextra : ∀ v ∈ (profile.get .extra_argv).wrap, host.to_string v ≠ some k) :
    ∃ total, total_ctx host (resolve_profile host model profile) = some total ∧
      ∀ x, (k, x) ∈ options launch.argv ↔
        ∃ v, (k, v) ∈ front_flags host model (resolve_profile host model profile) total ++
          back_flags (resolve_profile host model profile) ∧ v.given = true ∧ host.to_string v = some x := by
  unfold launch_spec at h
  cases hargv : argv host model (resolve_profile host model profile) port with
  | none => simp [hargv] at h
  | some ws =>
    simp only [hargv, Except.ok.injEq] at h
    subst h
    simp only [argv_eq, Option.bind_eq_bind, Option.bind_eq_some_iff, Option.some.injEq] at hargv
    obtain ⟨total, htotal, front, hfront, back, hback, extra, hwords, rfl⟩ := hargv
    refine ⟨total, htotal, fun x => mem_options_argv hfront hback hk ?_⟩
    intro hmem
    rw [resolve_get rfl] at hwords
    obtain ⟨v, hv, he⟩ := Host.mem_words hwords k hmem
    exact hextra v hv he

theorem toString_inj {m n : Int} (h : toString m = toString n) : m = n := by
  have hm := Text.parse_int_toString m
  rw [h, Text.parse_int_toString] at hm
  exact (Prod.mk.inj (Option.some.inj hm)).1.symm

theorem total_ctx_given {total : Val} (h : total_ctx host profile = some total) (hg : total.given = true) :
    ∃ c, profile.get .ctx = .int c ∧
      ((∃ n, (profile.get .parallel).or (.int 1) = .int n ∧ total = .int (c * n)) ∨
        ∃ m e, (profile.get .parallel).or (.int 1) = .float m e) := by
  unfold total_ctx at h
  split at h
  · next c hc =>
    refine ⟨c, hc, ?_⟩
    split at h
    · next n hn => exact .inl ⟨n, hn, (Option.some.inj h).symm⟩
    · next m e hm => exact .inr ⟨m, e, hm⟩
    · cases h
  · cases h
    cases hg

/-- Among the values `ctx` is multiplied by, only an integer is written down as one. -/
theorem int_of_word (hfloat : ∀ m e n : Int, host.float_to_string m e ≠ toString n) {P : Int} {parallel : Val}
    (hm : (∃ n, parallel.or (.int 1) = .int n) ∨ ∃ m e, parallel.or (.int 1) = .float m e)
    (hg : parallel.given = true) (hw : host.to_string parallel = some (toString P)) : parallel = .int P := by
  cases parallel with
  | nil => cases hg
  | bool b =>
    cases b with
    | true => simp [Val.or] at hm
    | false => exact absurd (Option.some.inj hw).symm (Text.toString_ne (c := 'f') (by decide) (by decide) (by decide))
  | int n => rw [toString_inj (Option.some.inj hw)]
  | float m e => exact absurd (Option.some.inj hw) (hfloat m e P)
  | str s => simp [Val.or] at hm
  | list l => simp [Val.or] at hm
  | map l => simp [Val.or] at hm

/-- A command line keeps the contract exactly when both numbers of the profile are integers and it asks for a sequence. -/
theorem contract_a_of_ok {launch : LaunchSpec} (hfloat : ∀ m e n : Int, host.float_to_string m e ≠ toString n)
    (h : launch_spec host model profile port = .ok launch)
    (hextra : ∀ v ∈ (profile.get .extra_argv).wrap, host.to_string v ≠ some "-c" ∧ host.to_string v ≠ some "--parallel") :
    ContractA (profile.get .ctx) launch.argv ↔ Sized profile := by
  obtain ⟨total, htotal, hc⟩ := mem_options_launch (k := "-c") h (by decide) fun v hv => (hextra v hv).1
  obtain ⟨total', htotal', hparallel⟩ := mem_options_launch (k := "--parallel") h (by decide) fun v hv => (hextra v hv).2
  rw [htotal] at htotal'
  cases htotal'
  simp [front_flags, back_flags] at hc hparallel
  unfold ContractA Sized
  simp only [hc, hparallel]
  rw [resolve_parallel]
  constructor
  · intro hkept
    obtain ⟨c, C, P, ⟨hgC, hC⟩, ⟨hgP, hP⟩, hpos, -, -⟩ := hkept
    obtain ⟨ctx, hctx, hor⟩ := total_ctx_given htotal hgC
    rw [resolve_parallel] at hor
    rw [resolve_get rfl] at hctx
    refine ⟨ctx, P, hctx, int_of_word hfloat ?_ hgP hP, hpos⟩
    obtain ⟨n, hn, -⟩ | hf := hor
    · exact .inl ⟨n, hn⟩
    · exact .inr hf
  · intro hsized
    obtain ⟨c, n, hctx, hn, hpos⟩ := hsized
    have hval : total = .int (c * n) := by
      rw [total_ctx, resolve_get rfl, resolve_parallel, hctx, hn] at htotal
      exact (Option.some.inj htotal).symm
    rw [hval, hctx, hn]
    exact ⟨c, c * n, n, ⟨rfl, rfl⟩, ⟨rfl, rfl⟩, hpos, by simp [Val.eq], rfl⟩

/-- **Contract A.** A launch fails or keeps the contract exactly when `ctx` and
`parallel` are integers with at least one sequence, or something in the profile
makes it raise. -/
theorem contract_a_iff (hfloat : ∀ m e n : Int, host.float_to_string m e ≠ toString n)
    (hextra : ∀ v ∈ (profile.get .extra_argv).wrap, host.to_string v ≠ some "-c" ∧ host.to_string v ≠ some "--parallel") :
    (∀ launch, launch_spec host model profile port = .ok launch → ContractA (profile.get .ctx) launch.argv) ↔
      Sized profile ∨ Raises host (resolve_profile host model profile) := by
  have hfails : Raises host (resolve_profile host model profile) ↔
      ∀ launch, launch_spec host model profile port ≠ .ok launch := by
    have hargv : argv host model (resolve_profile host model profile) port ≠ none ↔ _ := argv_ne_none
    rw [← not_iff_not, ← hargv, launch_spec]
    cases argv host model (resolve_profile host model profile) port <;> simp
  constructor
  · intro hall
    by_cases hr : Raises host (resolve_profile host model profile)
    · exact .inr hr
    · rw [hfails] at hr
      push Not at hr
      obtain ⟨launch, hlaunch⟩ := hr
      exact .inl ((contract_a_of_ok hfloat hlaunch hextra).mp (hall launch hlaunch))
  · intro hcond launch hlaunch
    obtain hsized | hr := hcond
    · exact (contract_a_of_ok hfloat hlaunch hextra).mpr hsized
    · exact absurd hlaunch (hfails.mp hr launch)

def sized_profile (ctx parallel : Val) : Profile := List.toAList [⟨.ctx, ctx⟩, ⟨.parallel, parallel⟩]

theorem bare_host_float (m e n : Int) : bare_host.float_to_string m e ≠ toString n :=
  (Text.toString_ne_empty n).symm

theorem contract_a_iff_two_sequences :
    (∀ launch, launch_spec bare_host bare_model (sized_profile (.int 4096) (.int 2)) 8081 = .ok launch →
      ContractA (.int 4096) launch.argv) ↔
    Sized (sized_profile (.int 4096) (.int 2)) ∨
      Raises bare_host (resolve_profile bare_host bare_model (sized_profile (.int 4096) (.int 2))) :=
  contract_a_iff bare_host_float fun v hv => by cases hv

/-- A `ctx` sent as text is dropped, and a null `parallel` leaves its number to the engine. -/
theorem contract_a_broken :
    (∃ launch, launch_spec bare_host bare_model (sized_profile (.str "4096") (.int 1)) 8081 = .ok launch ∧
      ¬ ContractA (.str "4096") launch.argv) ∧
    ∃ launch, launch_spec bare_host bare_model (sized_profile (.int 4096) .nil) 8081 = .ok launch ∧
      ¬ ContractA (.int 4096) launch.argv := by
  have hbroken : ∀ (p : Profile) {launch : LaunchSpec} {ctx : Val}, p.get .ctx = ctx → p.get .extra_argv = .nil →
      launch_spec bare_host bare_model p 8081 = .ok launch → ¬ Sized p → ¬ ContractA ctx launch.argv := by
    intro p launch ctx hctx hextra hl hs h
    rw [← hctx, contract_a_of_ok bare_host_float hl (by simp [hextra, Val.wrap])] at h
    exact hs h
  refine ⟨⟨_, rfl, hbroken (sized_profile (.str "4096") (.int 1)) rfl rfl rfl fun h => ?_⟩,
    ⟨_, rfl, hbroken (sized_profile (.int 4096) .nil) rfl rfl rfl fun h => ?_⟩⟩
  · obtain ⟨c, n, hc, -, -⟩ := h
    cases hc
  · obtain ⟨c, n, -, hn, -⟩ := h
    cases hn

end AiroAgent.LlamaCpp
