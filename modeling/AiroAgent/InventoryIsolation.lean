import AiroAgent.InventoryKeys

/-!
# A bad model and the others

A scan of the host, and a scan of the host without one of its models. What is
read for a model is its own, so the entries of the others are the same in both,
as long as there is an entry at all: a config that makes an access raise takes
the listing of every adapter down.
-/

namespace AiroAgent

variable {host : Host} {x : Artefact}

/-! ## Configs that can be read -/

namespace Vllm

/-- A two-level access goes through an object or null, and raises at anything else. -/
def Nested (config : Config) (key : String) : Prop :=
  match config_get config key with
  | .nil | .map _ => True
  | _ => False

def config_of (host : Host) (dir : String) : Config := read_config host (path_join dir "config.json")

def repo_of (dir : String) : Option String := (HFCache.repo_and_revision (path_join dir "config.json")).1

/-- No access to the config of a snapshot raises. -/
structure ConfigOk (host : Host) (dir : String) : Prop where
  quantization : Nested (config_of host dir) "quantization_config"
  quant_method : ∀ inner, config_get (config_of host dir) "quantization_config" = .map inner →
    (repo_of dir).isSome = true → (host.to_string (config_get inner "quant_method")).isSome = true
  text_config : (config_get (config_of host dir) "max_position_embeddings").or .nil = .nil →
    Nested (config_of host dir) "text_config"

theorem get_in_isSome_iff {config : Config} {key field : String} :
    (get_in config key field).isSome = true ↔ Nested config key := by
  unfold get_in Nested
  cases config_get config key <;> simp

theorem ctx_max_isSome_iff {config : Config} : (ctx_max config).isSome = true ↔
    ((config_get config "max_position_embeddings").or .nil = .nil → Nested config "text_config") := by
  unfold ctx_max
  cases h : config_get config "max_position_embeddings" with
  | nil => simp [Val.or, get_in_isSome_iff]
  | bool b => cases b <;> simp [Val.or, get_in_isSome_iff]
  | _ => simp [Val.or]

theorem isSome_prepend (repo : String) (o : Option String) : (do some (repo ++ ":" ++ (← o))).isSome = o.isSome := by
  cases o <;> rfl

theorem build_id_isSome_iff {repo revision : Option String} {quant : Val} :
    (build_id host repo revision quant).isSome = true ↔ (repo.isSome = true → (host.to_string quant).isSome = true) := by
  cases repo with
  | none => simp [build_id]
  | some repo =>
    cases quant with
    | nil => simp [build_id, Host.to_string, Val.to_string]
    | _ =>
      simp only [build_id, Option.isSome_some, true_imp_iff]
      exact iff_of_eq (congrArg (· = true) (isSome_prepend repo _))

theorem ref_from_dir_isSome_iff {dir : String} : (ref_from_dir host dir).isSome = true ↔ ConfigOk host dir := by
  have hparts : (ref_from_dir host dir).isSome = true ↔ ∃ quant,
      get_in (config_of host dir) "quantization_config" "quant_method" = some quant ∧
        ((repo_of dir).isSome = true → (host.to_string quant).isSome = true) ∧ (ctx_max (config_of host dir)).isSome = true := by
    simp only [← @build_id_isSome_iff host _ (HFCache.repo_and_revision (path_join dir "config.json")).2]
    simp only [ref_from_dir, Option.bind_eq_bind, Option.isSome_iff_exists, Option.bind_eq_some_iff, Option.pure_def,
      Option.some.injEq, config_of, repo_of]
    constructor
    · intro h
      obtain ⟨r, quant, hq, id, hid, ctx, hc, -⟩ := h
      exact ⟨quant, hq, ⟨id, hid⟩, ctx, hc⟩
    · intro h
      obtain ⟨quant, hq, ⟨id, hid⟩, ctx, hc⟩ := h
      exact ⟨_, quant, hq, id, hid, ctx, hc, rfl⟩
  rw [hparts]
  constructor
  · intro h
    obtain ⟨quant, hq, hs, hc⟩ := h
    refine ⟨get_in_isSome_iff.mp (by rw [hq]; rfl), ?_, ctx_max_isSome_iff.mp hc⟩
    intro inner hinner hrepo
    rw [get_in, hinner] at hq
    cases hq
    exact hs hrepo
  · intro h
    obtain ⟨quant, hq⟩ := Option.isSome_iff_exists.mp (get_in_isSome_iff.mpr h.quantization : (get_in _ _ "quant_method").isSome = true)
    refine ⟨quant, hq, ?_, ctx_max_isSome_iff.mpr h.text_config⟩
    intro hrepo
    cases hc : config_get (config_of host dir) "quantization_config" with
    | nil =>
      rw [get_in, hc] at hq
      cases hq
      rfl
    | map inner =>
      rw [get_in, hc] at hq
      cases hq
      exact h.quant_method inner hc hrepo
    | _ =>
      rw [get_in, hc] at hq
      cases hq

end Vllm

/-! ## A host without one of its models -/

def Artefact.holds : Artefact → String → Bool
  | gguf path, p => p = path
  | snapshot dir, p => Paths.dirname p = dir && !Text.ends_with (Paths.basename p) ".gguf"

/-- The files of a model gone: its GGUF file, or all of the snapshot but the GGUF files in it. -/
def Host.without (host : Host) (x : Artefact) : Host := { host with
  paths := host.paths.filter (!x.holds ·)
  read_file := fun p => if x.holds p then none else host.read_file p
  read_bytes := fun p => if x.holds p then none else host.read_bytes p
  file_size := fun p => if x.holds p then none else host.file_size p }

def Artefact.InTree (host : Host) : Artefact → Prop
  | gguf path => path ∈ LlamaCpp.model_files host
  | snapshot dir => dir ∈ Vllm.model_dirs host

def Artefact.describes : Artefact → ModelRef → Bool
  | gguf path, r => r.engine = .llama_cpp && r.path = path
  | snapshot dir, r => r.engine = .vllm && r.path = dir

/-- A GGUF file always gives an entry; a snapshot does where its config can be read, if it is looked at. -/
def Artefact.Readable (host : Host) : Artefact → Prop
  | gguf _ => True
  | snapshot dir => .vllm ∈ host.engines → Vllm.ConfigOk host dir

/-- The entries of a scan that are not those of `x`. -/
def others (host : Host) (x : Artefact) : List ModelRef := (Inventory.scan host).filter (!x.describes ·)

/-! ## Which files are whose -/

theorem not_gguf_of_safetensors {name : String} (h : Text.ends_with name ".safetensors" = true) :
    Text.ends_with name ".gguf" = false := by
  cases hg : Text.ends_with name ".gguf" with
  | false => rfl
  | true =>
    -- the last letters differ
    unfold Text.ends_with at h hg
    obtain ⟨front, hs⟩ := List.isSuffixOf_iff_suffix.mp h
    obtain ⟨front', hg⟩ := List.isSuffixOf_iff_suffix.mp hg
    have hlast := congrArg List.getLast? (hs.trans hg.symm)
    rw [List.getLast?_append, List.getLast?_append] at hlast
    rw [show ".safetensors".toList.getLast? = some 's' by decide, show ".gguf".toList.getLast? = some 'f' by decide] at hlast
    cases hlast

theorem InTree.gguf_name {path : String} (hx : Artefact.InTree host (.gguf path)) :
    Text.ends_with (Paths.basename path) ".gguf" = true ∧ LlamaCpp.projector path = false := by
  have hmem : path ∈ LlamaCpp.model_files host := hx
  simp only [LlamaCpp.model_files, List.mem_filter, List.mem_flatMap, Host.wildcard_below, Bool.not_eq_true'] at hmem
  obtain ⟨⟨⟨root, -, -, hroot⟩, -⟩, hproj⟩ := hmem
  exact ⟨Paths.ends_with_of_matches_below hroot, hproj⟩

theorem holds_of_not_gguf (hx : x.InTree host) {p : String} (hp : Text.ends_with (Paths.basename p) ".gguf" = false) :
    x.holds p = decide (x = .snapshot (Paths.dirname p)) := by
  cases x with
  | gguf path =>
    have hne : p ≠ path := by
      intro e
      rw [e, (InTree.gguf_name hx).1] at hp
      cases hp
    simp [Artefact.holds, hne]
  | snapshot dir => simp [Artefact.holds, hp, eq_comm]

theorem holds_of_gguf {p : String} (hp : Text.ends_with (Paths.basename p) ".gguf" = true) :
    x.holds p = decide (x = .gguf p) := by
  cases x with
  | gguf path => simp [Artefact.holds, eq_comm]
  | snapshot dir => simp [Artefact.holds, hp]

/-! ## What each wildcard finds without the model -/

theorem paths_without (f : String → Bool) : (host.without x).paths.filter f = (host.paths.filter f).filter (!x.holds ·) := by
  rw [Host.without, List.filter_filter, List.filter_filter]
  simp only [Bool.and_comm]

theorem configs_without (hx : x.InTree host) (root : String) : (host.without x).snapshot_configs root =
    (host.snapshot_configs root).filter fun p => decide (x ≠ .snapshot (Paths.dirname p)) := by
  unfold Host.snapshot_configs
  rw [paths_without]
  refine List.filter_congr fun p hp => ?_
  have hname : Paths.basename p = "config.json" := Paths.basename_of_matches_three (List.mem_filter.mp hp).2
  rw [holds_of_not_gguf hx (by rw [hname]; decide), decide_not]

theorem safetensors_without (hx : x.InTree host) {dir : String} (hd : x ≠ .snapshot dir) :
    Vllm.safetensors (host.without x) dir = Vllm.safetensors host dir := by
  unfold Vllm.safetensors Host.wildcard
  rw [paths_without, List.filter_eq_self]
  intro p hp
  obtain ⟨hdir, -, hext⟩ := Paths.matches_in_iff.mp (List.mem_filter.mp hp).2
  rw [holds_of_not_gguf hx (not_gguf_of_safetensors hext), hdir]
  simpa using hd

theorem gguf_without (root : String) : (host.without x).wildcard_below root ".gguf" =
    (host.wildcard_below root ".gguf").filter fun p => decide (x ≠ .gguf p) := by
  unfold Host.wildcard_below
  rw [paths_without]
  refine List.filter_congr fun p hp => ?_
  rw [holds_of_gguf (Paths.ends_with_of_matches_below (List.mem_filter.mp hp).2), decide_not]

theorem siblings_without (hx : x.InTree host) (path : String) :
    LlamaCpp.mmproj_sibling (host.without x) path = LlamaCpp.mmproj_sibling host path := by
  unfold LlamaCpp.mmproj_sibling Host.wildcard
  rw [paths_without, List.find?_filter]
  refine Listing.find?_congr fun p hp => ?_
  obtain ⟨-, -, hext⟩ := Paths.matches_in_iff.mp (List.mem_filter.mp hp).2
  rw [holds_of_gguf hext]
  by_cases h : x = .gguf p
  · subst h
    simp [(InTree.gguf_name hx).2]
  · simp [h]

/-! ## The listings without the model -/

theorem snapshot_dirs_without (hx : x.InTree host) : Vllm.snapshot_dirs (host.without x) =
    (Vllm.snapshot_dirs host).filter fun dir => decide (x ≠ .snapshot dir) := by
  unfold Vllm.snapshot_dirs
  rw [← Listing.filter_eraseDups, List.filter_map, List.filter_flatMap, funext (configs_without hx)]
  rfl

theorem model_dirs_without (hx : x.InTree host) : Vllm.model_dirs (host.without x) =
    (Vllm.model_dirs host).filter fun dir => decide (x ≠ .snapshot dir) := by
  unfold Vllm.model_dirs
  rw [snapshot_dirs_without hx, List.filter_filter, List.filter_filter]
  refine List.filter_congr fun dir _ => ?_
  by_cases hd : x = .snapshot dir
  · simp [hd]
  · simp [hd, Vllm.has_safetensors, safetensors_without hx hd]

theorem model_files_without : LlamaCpp.model_files (host.without x) =
    (LlamaCpp.model_files host).filter fun path => decide (x ≠ .gguf path) := by
  unfold LlamaCpp.model_files
  simp only [gguf_without, ← List.filter_flatMap, List.filter_filter]
  refine List.filter_congr fun path _ => ?_
  simp only [Bool.and_left_comm, Bool.and_comm]

theorem listed_by_without (hx : x.InTree host) (engine : EngineName) :
    Engine.listed_by (host.without x) engine = (Engine.listed_by host engine).filter (decide <| x ≠ ·) := by
  cases engine with
  | llama_cpp =>
    rw [Engine.listed_by, Engine.listed_by, model_files_without, List.filter_map]
    rfl
  | vllm =>
    rw [Engine.listed_by, Engine.listed_by, model_dirs_without hx, List.filter_map]
    rfl
  | other _ => rfl

theorem listed_without (hx : x.InTree host) :
    Engine.listed (host.without x) = (Engine.listed host).filter (decide <| x ≠ ·) := by
  unfold Engine.listed
  rw [List.filter_flatMap, funext (listed_by_without hx)]
  rfl

/-! ## The entries without the model -/

theorem path_join_config {dir : String} (hd : Paths.Trimmed dir) :
    Paths.dirname (Vllm.path_join dir "config.json") = dir ∧ Paths.basename (Vllm.path_join dir "config.json") = "config.json" := by
  have hslash : '/' ∉ "config.json".toList := by decide
  unfold Vllm.path_join
  rcases hd with rfl | ⟨hne, hlast⟩
  · have hroot : ("/" ++ "config.json" : String) = "" ++ "/" ++ "config.json" := rfl
    rw [if_neg (by decide), if_pos (by decide), hroot]
    exact ⟨Paths.dirname_append hslash (by decide), Paths.basename_append hslash (by decide)⟩
  · rw [if_neg hne, if_neg hlast]
    refine ⟨?_, Paths.basename_append hslash (by decide)⟩
    rw [Paths.dirname_append hslash hlast, if_neg hne]

theorem read_config_without (hx : x.InTree host) {dir : String} (hd : Paths.Trimmed dir) (hne : x ≠ .snapshot dir) :
    Vllm.config_of (host.without x) dir = Vllm.config_of host dir := by
  obtain ⟨hdir, hname⟩ := path_join_config hd
  have hheld : x.holds (Vllm.path_join dir "config.json") = false := by
    rw [holds_of_not_gguf hx (by rw [hname]; decide), hdir]
    exact decide_eq_false hne
  simp [Vllm.config_of, Vllm.read_config, Host.without, hheld]

theorem bytes_without (hx : x.InTree host) {dir : String} (hne : x ≠ .snapshot dir) :
    Vllm.safetensors_bytes (host.without x) dir = Vllm.safetensors_bytes host dir := by
  unfold Vllm.safetensors_bytes
  rw [safetensors_without hx hne]
  refine List.foldl_ext _ _ _ fun n p hp => ?_
  obtain ⟨hdir, -, hext⟩ := Paths.matches_in_iff.mp (List.mem_filter.mp hp).2
  have hheld : x.holds p = false := by
    rw [holds_of_not_gguf hx (not_gguf_of_safetensors hext), hdir]
    exact decide_eq_false hne
  simp [Host.without, hheld]

theorem ref_from_dir_without (hx : x.InTree host) {dir : String} (hd : Paths.Trimmed dir) (hne : x ≠ .snapshot dir) :
    Vllm.ref_from_dir (host.without x) dir = Vllm.ref_from_dir host dir := by
  have hconfig := read_config_without hx hd hne
  unfold Vllm.config_of at hconfig
  simp only [Vllm.ref_from_dir, hconfig, bytes_without hx hne]
  rfl

theorem ref_from_path_without (hx : x.InTree host) {path : String}
    (hname : Text.ends_with (Paths.basename path) ".gguf" = true) (hne : x ≠ .gguf path) :
    LlamaCpp.ref_from_path (host.without x) path = LlamaCpp.ref_from_path host path := by
  have hheld : x.holds path = false := by
    rw [holds_of_gguf hname]
    exact decide_eq_false hne
  have hinfo : GGUF.metadata (host.without x) path = GGUF.metadata host path := by
    simp [GGUF.metadata, GGUF.metadata_upto, Host.without, hheld]
  have hsize : (host.without x).file_size path = host.file_size path := by
    simp [Host.without, hheld]
  unfold LlamaCpp.ref_from_path LlamaCpp.caps_for
  rw [hinfo, hsize, siblings_without hx]

theorem model_dir_trimmed {dir : String} (hd : dir ∈ Vllm.model_dirs host) : Paths.Trimmed dir := by
  have hmem : dir ∈ Vllm.snapshot_dirs host := (List.mem_filter.mp hd).1
  simp only [Vllm.snapshot_dirs, List.mem_eraseDups, List.mem_map] at hmem
  obtain ⟨p, -, rfl⟩ := hmem
  exact Paths.dirname_trimmed p

theorem in_tree_of_listed {y : Artefact} (hy : y ∈ Engine.listed host) : y.InTree host := by
  simp only [Engine.listed, List.mem_flatMap] at hy
  obtain ⟨engine, -, hy⟩ := hy
  cases engine with
  | llama_cpp =>
    obtain ⟨path, hpath, rfl⟩ := List.mem_map.mp hy
    exact hpath
  | vllm =>
    obtain ⟨dir, hdir, rfl⟩ := List.mem_map.mp hy
    exact hdir
  | other _ => cases hy

theorem snapshot_mem_listed {dir : String} : .snapshot dir ∈ Engine.listed host ↔
    .vllm ∈ host.engines ∧ dir ∈ Vllm.model_dirs host := by
  simp only [Engine.listed, List.mem_flatMap, List.mem_filter]
  constructor
  · intro h
    obtain ⟨engine, ⟨hengine, -⟩, hdir⟩ := h
    cases engine with
    | vllm => exact ⟨hengine, by simpa [Engine.listed_by] using hdir⟩
    | llama_cpp => simp [Engine.listed_by] at hdir
    | other _ => cases hdir
  · intro h
    exact ⟨.vllm, ⟨h.1, rfl⟩, List.mem_map_of_mem h.2⟩

theorem ref_isSome_iff {y : Artefact} (hy : y ∈ Engine.listed host) : (y.ref host).isSome = true ↔ y.Readable host := by
  cases y with
  | gguf path => simp [Artefact.ref, Artefact.Readable]
  | snapshot dir =>
    have hvllm := (snapshot_mem_listed.mp hy).1
    simp [Artefact.ref, Artefact.Readable, Vllm.ref_from_dir_isSome_iff, hvllm]

theorem mem_listed_of_not_readable (hx : x.InTree host) (h : ¬ x.Readable host) : x ∈ Engine.listed host := by
  cases x with
  | gguf path => exact absurd trivial h
  | snapshot dir =>
    refine snapshot_mem_listed.mpr ⟨?_, hx⟩
    by_cases hvllm : .vllm ∈ host.engines
    · exact hvllm
    · exact absurd (fun hmem => absurd hmem hvllm) h

theorem ref_without (hx : x.InTree host) {y : Artefact} (hy : y.InTree host) (hne : x ≠ y) :
    y.ref (host.without x) = y.ref host := by
  cases y with
  | gguf path => exact congrArg some (ref_from_path_without hx (InTree.gguf_name hy).1 hne)
  | snapshot dir => exact ref_from_dir_without hx (model_dir_trimmed hy) hne

theorem describes_iff {y : Artefact} {r : ModelRef} (h : y.ref host = some r) : x.describes r = true ↔ x = y := by
  cases y with
  | gguf path =>
    cases h
    cases x with
    | gguf path' => simp [Artefact.describes, LlamaCpp.ref_from_path, @eq_comm _ path]
    | snapshot dir => simp [Artefact.describes, LlamaCpp.ref_from_path]
  | snapshot dir =>
    simp only [Artefact.ref, Vllm.ref_from_dir, Option.bind_eq_bind, Option.bind_eq_some_iff, Option.pure_def,
      Option.some.injEq] at h
    obtain ⟨quant, -, id, -, ctx, -, rfl⟩ := h
    cases x with
    | gguf path => simp [Artefact.describes]
    | snapshot dir' => simp [Artefact.describes, @eq_comm _ dir]

theorem filterMap_others {l : List Artefact} : (l.filterMap (Artefact.ref host)).filter (!x.describes ·) =
    (l.filter (decide <| x ≠ ·)).filterMap (Artefact.ref host) := by
  rw [List.filter_filterMap, List.filterMap_filter]
  refine List.filterMap_congr fun y _ => ?_
  cases h : y.ref host with
  | none => simp
  | some r =>
    have hdescribes : x.describes r = decide (x = y) := by
      rw [Bool.eq_iff_iff, decide_eq_true_eq]
      exact describes_iff h
    simp only [Option.filter_some, hdescribes]
    by_cases hxy : x = y <;> simp [hxy]

/-! ## A scan -/

open Classical in
theorem others_of_listed {l : List Artefact} (hl : ∀ y ∈ l, y ∈ Engine.listed host) :
    ((l.mapM (Artefact.ref host)).getD []).filter (!x.describes ·) =
      if ∀ y ∈ l, y.Readable host then (l.filter (decide <| x ≠ ·)).filterMap (Artefact.ref host) else [] := by
  have hread : (∀ y ∈ l, (y.ref host).isSome = true) ↔ ∀ y ∈ l, y.Readable host :=
    forall₂_congr fun y hy => ref_isSome_iff (hl y hy)
  rw [Listing.mapM_getD]
  by_cases h : ∀ y ∈ l, y.Readable host
  · rw [if_pos (hread.mpr h), if_pos h, filterMap_others]
  · rw [if_neg (mt hread.mp h), if_neg h, List.filter_nil]

open Classical in
theorem others_eq : others host x = if ∀ y ∈ Engine.listed host, y.Readable host then
    ((Engine.listed host).filter (decide <| x ≠ ·)).filterMap (Artefact.ref host) else [] := by
  rw [others, Inventory.scan_eq, others_of_listed fun y hy => hy]

open Classical in
theorem others_without_eq (hx : x.InTree host) : others (host.without x) x =
    if ∀ y ∈ Engine.listed host, x ≠ y → y.Readable host then
      ((Engine.listed host).filter (decide <| x ≠ ·)).filterMap (Artefact.ref host) else [] := by
  have hrefs : ((Engine.listed host).filter (decide <| x ≠ ·)).mapM (Artefact.ref (host.without x)) =
      ((Engine.listed host).filter (decide <| x ≠ ·)).mapM (Artefact.ref host) := by
    apply Listing.mapM_congr
    intro y hy
    obtain ⟨hy, hne⟩ := List.mem_filter.mp hy
    exact ref_without hx (in_tree_of_listed hy) (of_decide_eq_true hne)
  rw [others, Inventory.scan_eq, listed_without hx, hrefs, others_of_listed fun y hy => (List.mem_filter.mp hy).1]
  simp [List.filter_filter]

theorem no_others_iff (h : ∀ y ∈ Engine.listed host, x ≠ y → y.Readable host) :
    ((Engine.listed host).filter (decide <| x ≠ ·)).filterMap (Artefact.ref host) = [] ↔ ∀ y ∈ Engine.listed host, x = y := by
  constructor
  · intro hnil y hy
    by_contra hne
    have hnone := List.filterMap_eq_nil_iff.mp hnil y (List.mem_filter.mpr ⟨hy, decide_eq_true hne⟩)
    have hsome := (ref_isSome_iff hy).mpr (h y hy hne)
    rw [hnone] at hsome
    cases hsome
  · intro honly
    have hnil : (Engine.listed host).filter (decide <| x ≠ ·) = [] := by
      simpa [List.filter_eq_nil_iff] using honly
    rw [hnil, List.filterMap_nil]

/-- **A bad model never hides the others**, unless its config makes an access raise, those of the
others do not, and there are others. -/
theorem others_unchanged_iff (hx : x.InTree host) : others host x = others (host.without x) x ↔
    x.Readable host ∨ (∃ y ∈ Engine.listed host, x ≠ y ∧ ¬ y.Readable host) ∨ ∀ y ∈ Engine.listed host, x = y := by
  rw [others_eq, others_without_eq hx]
  by_cases hothers : ∀ y ∈ Engine.listed host, x ≠ y → y.Readable host
  · rw [if_pos hothers]
    by_cases hself : x.Readable host
    · have hall : ∀ y ∈ Engine.listed host, y.Readable host := by
        intro y hy
        by_cases hxy : x = y
        · exact hxy ▸ hself
        · exact hothers y hy hxy
      rw [if_pos hall]
      exact iff_of_true rfl (.inl hself)
    · have hlisted := mem_listed_of_not_readable hx hself
      rw [if_neg fun hall => hself (hall x hlisted), eq_comm, no_others_iff hothers]
      constructor
      · intro honly
        exact .inr (.inr honly)
      · intro h
        rcases h with h | ⟨y, hy, hne, hbad⟩ | honly
        · exact absurd h hself
        · exact absurd (hothers y hy hne) hbad
        · exact honly
  · rw [if_neg hothers, if_neg fun hall => hothers fun y hy _ => hall y hy]
    push Not at hothers
    exact iff_of_true rfl (.inr (.inl hothers))

def revision_a : Artefact := .snapshot "/h/models--o--r/snapshots/a"

/-- No JSON at all is as good as no config. -/
def not_json : Host := { two_snapshots with read_file := fun _ => some "]" }

theorem others_unchanged_iff_not_json : others not_json revision_a = others (not_json.without revision_a) revision_a := by
  refine (others_unchanged_iff (show _ ∈ Vllm.model_dirs not_json by decide +kernel)).mpr (.inl fun _ => ?_)
  exact Vllm.ref_from_dir_isSome_iff.mp (by decide +kernel)

def text_quantization : String := "\x7b\"quantization_config\": \"fp8\"\x7d"

/-- Revision `a` gives a string where an object is expected. -/
def bad_quantization : Host := { two_snapshots with
  read_file := fun path => if path = "/h/models--o--r/snapshots/a/config.json" then some text_quantization else none
  json_decode := fun text => if text = text_quantization then some (.map [("quantization_config", .str "fp8")]) else none }

/-- The other revision is gone from the catalogue, and is back without the bad one. -/
theorem bad_quantization_hides_other : revision_a.InTree bad_quantization ∧ others bad_quantization revision_a = [] ∧
    (others (bad_quantization.without revision_a) revision_a).map (·.path) = ["/h/models--o--r/snapshots/b"] := by
  have hnone : (others bad_quantization revision_a).map (·.path) = [] := by decide +kernel
  refine ⟨show _ ∈ Vllm.model_dirs bad_quantization by decide +kernel, List.map_eq_nil_iff.mp hnone, ?_⟩
  decide +kernel

end AiroAgent
