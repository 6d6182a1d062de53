import AiroAgent.NullKnob
import AiroAgent.VllmLaunch
import AiroAgent.VllmSlotChecks

/-!
# Maps on the way to the wrapper

A profile's `container_env` and `overlay_files` travel as one variable each, an
entry a line, and the wrapper reads them line by line. Nothing is escaped: an
entry with the separator in it comes out as something else.
-/

namespace AiroAgent.VllmSlot

variable {host : Host} {profile : Profile} {entries : List (String × String)} {name sep : String}
  {pairs : List (String × Val)} {vars : List (String × String)} {env : Env}

/-! ## One entry a line -/

def string_map (entries : List (String × String)) : Val := .map (entries.map fun e => (e.1, .str e.2))

def entry_line (sep : String) (e : String × String) : String := e.1 ++ sep ++ e.2

theorem lines_entry_line {c : Char} {e : String × String} (hc : c ∈ sep.toList) (hsep : '\n' ∉ sep.toList)
    (hk : '\n' ∉ e.1.toList) (hv : '\n' ∉ e.2.toList) : Text.lines (entry_line sep e) = [entry_line sep e] := by
  refine Text.lines_of_not_mem (by simp [entry_line, hsep, hk, hv]) ?_
  intro hempty
  have : c ∈ (entry_line sep e).toList := by simp [entry_line, hc]
  rw [hempty] at this
  cases this

/-- The variable reaches the wrapper with what the adapter put into it. -/
def Carried (name : String) (pairs : List (String × Val)) (env : Env) : Prop :=
  ∃ vars, port_env pairs = some vars ∧ env.lookup name = vars.lookup name

def joined (sep : String) (entries : List (String × String)) : String :=
  Text.join '\n' ((entries.map (entry_line sep)).mergeSort (· ≤ ·))

theorem entry_lines_string_map (hne : entries ≠ []) :
    Vllm.entry_lines host name sep (string_map entries) = some [(name, .str (joined sep entries))] := by
  cases entries with
  | nil => exact absurd rfl hne
  | cons e es =>
    have hvalues : ((e :: es).map fun e => (e.1, Val.str e.2)).map Prod.snd = ((e :: es).map Prod.snd).map .str := by
      simp
    have hzip : ((((e :: es).map fun e => (e.1, Val.str e.2)).map Prod.fst).zip ((e :: es).map Prod.snd)).map
        (fun kv => kv.1 ++ sep ++ kv.2) = (e :: es).map (entry_line sep) := by
      rw [List.map_map, List.zip_map', List.map_map]
      rfl
    have hwords := congrArg host.words hvalues
    rw [Host.words_str] at hwords
    simp only [List.map_cons] at hwords hzip
    simp only [string_map, Vllm.entry_lines, List.map_cons, hwords, Option.bind_eq_bind, Option.bind_some, hzip, joined]

theorem lines_joined (hne : entries ≠ []) :
    (Text.lines (joined sep entries)).Perm (entries.flatMap fun e => Text.lines (entry_line sep e)) := by
  have hsorted := List.mergeSort_perm (entries.map (entry_line sep)) (· ≤ ·)
  have hmap : (entries.map (entry_line sep)).mergeSort (· ≤ ·) ≠ [] := by
    intro h
    rw [h] at hsorted
    exact hne (List.map_eq_nil_iff.mp hsorted.symm.eq_nil)
  rw [joined, Text.lines_join hmap]
  refine (hsorted.flatMap_right Text.lines).trans ?_
  rw [List.flatMap_map]

theorem mem_joined {c : Char} (hc : c ∈ sep.toList) (hne : entries ≠ []) : c ∈ (joined sep entries).toList := by
  obtain ⟨e, he⟩ := List.exists_mem_of_ne_nil entries hne
  refine Text.mem_join (s := entry_line sep e) ?_ ?_
  · simp [entry_line, hc]
  · rw [List.mem_mergeSort]
    exact List.mem_map_of_mem he

theorem joined_ne_empty {c : Char} (hc : c ∈ sep.toList) (hne : entries ≠ []) : joined sep entries ≠ "" :=
  Text.ne_empty_of_mem (mem_joined hc hne)

theorem lookup_carried {c : Char} (hc : c ∈ sep.toList) (hne : entries ≠ [])
    (hpairs : Vllm.entry_lines host name sep (string_map entries) = some pairs) (h : Carried name pairs env) :
    getenv env name "" = joined sep entries := by
  rw [entry_lines_string_map hne] at hpairs
  cases hpairs
  obtain ⟨vars, hvars, hlookup⟩ := h
  have hvalue : joined sep entries ≠ "" := joined_ne_empty hc hne
  rw [port_env_lookup hvars (by simp) hvalue] at hlookup
  exact getenv_of_lookup hlookup hvalue

theorem joined_singleton (sep : String) (e : String × String) : joined sep [e] = entry_line sep e := by
  simp [joined, Text.join]

theorem carried_joined {c : Char} (hc : c ∈ sep.toList) {env : Env} {e : String × String} (h : env.lookup name = none) :
    Carried name [(name, .str (joined sep [e]))] (env ++ [(name, joined sep [e])]) := by
  have hvalue : joined sep [e] ≠ "" := joined_ne_empty hc (List.cons_ne_nil _ _)
  refine ⟨_, rfl, ?_⟩
  rw [List.lookup_append, h, if_neg hvalue, Option.none_or]

/-! ## The environment -/

/-- One `-e K=V` an entry, up to their order and number. -/
def EnvEntries (words : List String) (entries : List (String × String)) : Prop :=
  ∃ kvs : List String, words = kvs.flatMap (fun kv => ["-e", kv]) ∧ ∀ kv, kv ∈ kvs ↔ ∃ e ∈ entries, kv = entry_line "=" e

theorem flatMap_flag_injective {kvs kvs' : List String}
    (h : kvs.flatMap (fun kv => ["-e", kv]) = kvs'.flatMap (fun kv => ["-e", kv])) : kvs = kvs' := by
  induction kvs generalizing kvs' with
  | nil =>
    cases kvs' with
    | nil => rfl
    | cons kv kvs' => cases h
  | cons kv kvs ih =>
    cases kvs' with
    | nil => cases h
    | cons kv' kvs' =>
      simp only [List.flatMap_cons, List.cons_append, List.nil_append, List.cons.injEq, true_and] at h
      rw [h.1, ih h.2]

theorem env_entries_iff (hne : entries ≠ []) (hvalue : getenv env "AIRO_VLLM_CONTAINER_ENV" "" = joined "=" entries) :
    EnvEntries (env_args env) entries ↔ ∀ e ∈ entries, '\n' ∉ e.1.toList ∧ '\n' ∉ e.2.toList := by
  have hmem : ∀ kv, kv ∈ Text.lines (joined "=" entries) ↔ ∃ e ∈ entries, kv ∈ Text.lines (entry_line "=" e) := by
    intro kv
    rw [(lines_joined hne).mem_iff, List.mem_flatMap]
  unfold EnvEntries env_args
  rw [hvalue]
  refine ⟨fun h e he => ?_, fun h => ⟨_, rfl, fun kv => ?_⟩⟩
  · obtain ⟨kvs, hkvs, h⟩ := h
    cases flatMap_flag_injective hkvs
    have hline := Text.not_mem_lines ((h (entry_line "=" e)).mpr ⟨e, he, rfl⟩)
    simpa [entry_line] using hline
  · rw [hmem]
    refine exists_congr fun e => and_congr_right fun he => ?_
    have hnone := h e he
    rw [lines_entry_line (by decide : '=' ∈ "=".toList) (by decide) hnone.1 hnone.2, List.mem_singleton]

theorem env_entries_empty (hvalue : getenv env "AIRO_VLLM_CONTAINER_ENV" "" = "") : EnvEntries (env_args env) [] := by
  refine ⟨[], ?_, by simp⟩
  rw [env_args, hvalue]
  rfl

/-- **The environment of a profile.** Both ranks get its entries if and only if no key and no value has a newline in it. -/
theorem container_env_iff {world : World} {args : List String} {head worker : RankRun}
    (hprofile : profile.get .container_env = string_map entries)
    (hpairs : Vllm.container_env_pairs host profile = some pairs) (hcarried : Carried "AIRO_VLLM_CONTAINER_ENV" pairs env)
    (hlaunch : launch world env args = .ok (.cluster head worker)) :
    (EnvEntries head.parts.env_args entries ∧ EnvEntries worker.parts.env_args entries) ↔
      ∀ e ∈ entries, '\n' ∉ e.1.toList ∧ '\n' ∉ e.2.toList := by
  obtain ⟨p, master_ip, nccl_if, -, hp, rfl, rfl⟩ := launch_eq hlaunch
  have hhead : (head_run world env args p master_ip nccl_if).parts.env_args = env_args env := (parts_fields hp).2.1
  have hworker : (worker_run env args p nccl_if).parts.env_args = env_args env := (parts_fields hp).2.1
  rw [hhead, hworker, and_self]
  rw [Vllm.container_env_pairs, hprofile] at hpairs
  by_cases hne : entries = []
  · subst hne
    cases hpairs
    obtain ⟨vars, hvars, hlookup⟩ := hcarried
    cases hvars
    refine iff_of_true (env_entries_empty ?_) (by simp)
    rw [getenv, hlookup]
    rfl
  · exact env_entries_iff hne (lookup_carried (by decide : '=' ∈ "=".toList) hne hpairs hcarried)

def env_profile (e : String × String) : Profile := List.toAList [⟨.container_env, string_map [e]⟩]

def env_launch (e : String × String) : Env := cluster_env "vllm" ++ [("AIRO_VLLM_CONTAINER_ENV", joined "=" [e])]

theorem container_env_iff_plain : ∃ head worker, launch {} (env_launch ("LEVEL", "1")) serve = .ok (.cluster head worker) ∧
    (EnvEntries head.parts.env_args [("LEVEL", "1")] ∧ EnvEntries worker.parts.env_args [("LEVEL", "1")]) := by
  have h : ∃ head worker, launch {} (env_launch ("LEVEL", "1")) serve = .ok (.cluster head worker) := ⟨_, _, rfl⟩
  obtain ⟨head, worker, h⟩ := h
  have hpairs : Vllm.container_env_pairs bare_host (env_profile ("LEVEL", "1")) =
      some [("AIRO_VLLM_CONTAINER_ENV", .str (joined "=" [("LEVEL", "1")]))] := rfl
  exact ⟨head, worker, h, (container_env_iff rfl hpairs (carried_joined (by decide : '=' ∈ "=".toList) rfl) h).mpr (by decide)⟩

/-- A value of two lines sets a second variable, and the first to half of its value. -/
theorem newline_value_splits : ∃ head worker, launch {} (env_launch ("A", "1\nB=2")) serve = .ok (.cluster head worker) ∧
    head.parts.env_args = ["-e", "A=1", "-e", "B=2"] ∧
    ¬ (EnvEntries head.parts.env_args [("A", "1\nB=2")] ∧ EnvEntries worker.parts.env_args [("A", "1\nB=2")]) := by
  have h : ∃ head worker, launch {} (env_launch ("A", "1\nB=2")) serve = .ok (.cluster head worker) := ⟨_, _, rfl⟩
  obtain ⟨head, worker, h⟩ := h
  have hwords : head.parts.env_args = ["-e", "A=1", "-e", "B=2"] := by
    obtain ⟨p, master_ip, nccl_if, -, hp, rfl, rfl⟩ := launch_eq h
    refine (parts_fields hp).2.1.trans ?_
    have hvalue : getenv (env_launch ("A", "1\nB=2")) "AIRO_VLLM_CONTAINER_ENV" "" = "A=1\nB=2" := by
      rw [env_launch, joined_singleton]
      decide
    rw [env_args, hvalue]
    decide
  refine ⟨head, worker, h, hwords, fun hboth => ?_⟩
  obtain ⟨kvs, hkvs, hmem⟩ := hboth.1
  have hlines : ["A=1", "B=2"].flatMap (fun kv => ["-e", kv]) = kvs.flatMap fun kv => ["-e", kv] := hwords.symm.trans hkvs
  cases flatMap_flag_injective hlines
  have := (hmem "B=2").mp (by simp)
  revert this
  decide

/-! ## The overlays -/

section
variable {hosts : Hosts} {args : List String}

theorem overlay_pair {line : String} {m : String × String} (h : (Script.overlay hosts line).result = .ok m) :
    m = Text.cut ':' line := by
  unfold Script.overlay at h
  by_cases hparts : (Text.cut ':' line).1 = "" ∨ (Text.cut ':' line).2 = "" ∨ (Text.cut ':' line).1 = line
  · simp only [hparts, if_true] at h
    cases h
  · simp only [hparts, if_false] at h
    obtain ⟨found, -, h, -⟩ := Prog.of_bind_ok h
    cases found with
    | false => cases h
    | true =>
      cases h
      rfl

theorem overlays_pairs {lines : List String} {mounted : List (String × String)}
    (h : (Script.overlays hosts lines).result = .ok mounted) : mounted = lines.map (Text.cut ':') := by
  induction lines generalizing mounted with
  | nil =>
    cases h
    rfl
  | cons line lines ih =>
    obtain ⟨m, hm, h, -⟩ := Prog.of_bind_ok h
    obtain ⟨ms, hms, h, -⟩ := Prog.of_bind_ok h
    cases h
    rw [List.map_cons, overlay_pair hm, ih hms]

/-! ### Refusals -/

section
variable {world : World} {refusal : Refusal}

theorem encoding_args_refusal (h : encoding_args world env = .error refusal) : refusal.status = 78 := by
  unfold encoding_args at h
  split at h
  · cases h
  · split at h
    · cases h
    · cases h
      rfl

theorem overlay_refusal {line : String} (h : overlay world line = .error refusal) : refusal.status = 78 := by
  unfold overlay at h
  by_cases hparts : (Text.cut ':' line).1 = "" ∨ (Text.cut ':' line).2 = "" ∨ (Text.cut ':' line).1 = line
  · simp only [hparts, if_true] at h
    cases h
    rfl
  · simp only [hparts, if_false] at h
    split at h
    · cases h
    · cases h
      rfl

theorem overlays_refusal {lines : List String} (h : overlays world lines = .error refusal) : refusal.status = 78 := by
  induction lines with
  | nil => cases h
  | cons line lines ih =>
    obtain h | ⟨words, -, h⟩ := bind_eq_error.mp h
    · exact overlay_refusal h
    · obtain h | ⟨words', -, h⟩ := bind_eq_error.mp h
      · exact ih h
      · cases h

theorem required_refusal {name why : String} (h : required env name why = .error refusal) : refusal.status = 1 := by
  unfold required refuse at h
  split at h
  · split at h
    · cases h
      rfl
    · cases h
  · cases h
    rfl

theorem model_root_refusal (h : model_root env = .error refusal) : refusal.status = 1 := by
  have hhome : ∀ {r}, model_root.home_root env = .error r → r.status = 1 := by
    intro r hr
    unfold model_root.home_root refuse at hr
    split at hr
    · cases hr
    · cases hr
      rfl
  unfold model_root at h
  split at h
  · split at h
    · exact hhome h
    · cases h
  · exact hhome h

/-- The wrapper has its image and its model root. -/
def Configured (env : Env) : Prop :=
  Given env "VLLM_IMAGE" ∧ (Given env "AIRO_AGENT_MODEL_ROOT" ∨ (env.lookup "HOME").isSome = true)

/-- What stands behind the image and the model root refuses with 78. -/
theorem parts_refusal (h : parts world env args = .error refusal) : refusal.status = 78 ↔ Configured env := by
  unfold Configured
  rw [← required_ok_iff, ← model_root_ok_iff]
  unfold parts at h
  obtain h | ⟨image, himage, h⟩ := bind_eq_error.mp h
  · rw [required_refusal h, h]
    simp
  obtain h | ⟨root, hroot, h⟩ := bind_eq_error.mp h
  · rw [model_root_refusal h, h]
    simp
  refine iff_of_true ?_ ⟨⟨image, himage⟩, root, hroot⟩
  obtain h | ⟨_, -, h⟩ := bind_eq_error.mp h
  · exact encoding_args_refusal h
  obtain h | ⟨_, -, h⟩ := bind_eq_error.mp h
  · exact overlays_refusal h
  cases h

end

/-! ### What is mounted -/

/-- Nothing the wrapper looks for on this host is missing, and every line names a source and a target. -/
def Complete (hosts : Hosts) (env : Env) (entries : List (String × String)) : Prop :=
  (encoding_file env = "" ∨ hosts.found .head .file (encoding_file env) = true) ∧
    ∀ e ∈ entries, ∀ line ∈ Text.lines (entry_line ":" e), Fits hosts.world line

/-- The launch is refused before a runtime call, or each entry is mounted once. The source and
the target of a mount are what the overlay loop reads. -/
inductive MountsExactly (hosts : Hosts) (env : Env) (args : List String) (entries : List (String × String)) : Prop where
  | refused (refusal : Refusal) (result : (Script.script hosts env args).result = .error refusal)
    (status : refusal.status = 78) (before : Prog.Never (·.runtime = true) (Script.script hosts env args))
  | mounted (p : Parts) (parts : parts hosts.world env args = .ok p) (mounted : List (String × String))
    (read : (Script.overlays hosts (overlay_lines env)).result = .ok mounted)
    (added : p.overlay_args = Script.mounts mounted) (exact : mounted.Perm entries)

theorem parts_ok_iff_complete (hlines : (overlay_lines env).Perm (entries.flatMap fun e => Text.lines (entry_line ":" e))) :
    (∃ p, parts hosts.world env args = .ok p) ↔ Configured env ∧ Complete hosts env entries := by
  have hfits : (∀ line ∈ overlay_lines env, Fits hosts.world line) ↔
      ∀ e ∈ entries, ∀ line ∈ Text.lines (entry_line ":" e), Fits hosts.world line := by
    simp only [hlines.mem_iff, List.mem_flatMap]
    exact ⟨fun h e he line hline => h line ⟨e, he, hline⟩, fun h line ⟨e, he, hline⟩ => h e he line hline⟩
  rw [parts_ok_iff, hfits, Configured, Complete, and_assoc]
  rfl

theorem not_never_of_parts {p : Parts} (h : parts hosts.world env args = .ok p) :
    ¬ Prog.Never (·.runtime = true) (Script.script hosts env args) := by
  intro hnever
  refine hnever (.remove .head) ?_ rfl
  rw [← Script.result_parts] at h
  unfold Script.script Script.checks
  refine Prog.mem_trace_bind (Prog.mem_trace_bind_ok h (Prog.mem_trace_bind ?_))
  rw [Script.release_succ]
  exact .head _

theorem script_of_parts_error {refusal : Refusal} (h : parts hosts.world env args = .error refusal) :
    (Script.script hosts env args).result = .error refusal ∧ Prog.Never (·.runtime = true) (Script.script hosts env args) := by
  rw [← Script.result_parts] at h
  have hchecks : Script.checks hosts env args = ⟨(Script.parts hosts env args).trace, .error refusal⟩ := Prog.bind_error h
  have hresult : (Script.checks hosts env args).result = .error refusal := by rw [hchecks]
  unfold Script.script
  rw [Prog.bind_error hresult, hchecks]
  exact ⟨rfl, Script.never_parts⟩

/-- No separator can be taken for another. -/
def Separable (e : String × String) : Prop := ':' ∉ e.1.toList ∧ '\n' ∉ e.1.toList ∧ '\n' ∉ e.2.toList

instance (e : String × String) : Decidable (Separable e) := inferInstanceAs (Decidable (_ ∧ _ ∧ _))

theorem cut_lines_perm_iff (hlines : (overlay_lines env).Perm (entries.flatMap fun e => Text.lines (entry_line ":" e))) :
    ((overlay_lines env).map (Text.cut ':')).Perm entries ↔ ∀ e ∈ entries, Separable e := by
  refine ⟨fun h e he => ?_, fun h => (hlines.map _).trans ?_⟩
  · obtain ⟨line, hline, rfl⟩ := List.mem_map.mp (h.mem_iff.mpr he)
    have hnewline : '\n' ∉ line.toList := Text.not_mem_lines hline
    exact ⟨Text.not_mem_cut, fun hc => hnewline (Text.mem_of_mem_cut_fst hc), fun hc => hnewline (Text.mem_of_mem_cut_snd hc)⟩
  · clear hlines
    induction entries with
    | nil => simp
    | cons e es ih =>
      rw [List.forall_mem_cons] at h
      obtain ⟨⟨hcolon, hhost, htarget⟩, h⟩ := h
      have hcut : Text.cut ':' (entry_line ":" e) = e := Text.cut_append hcolon
      have hline : Text.lines (entry_line ":" e) = [entry_line ":" e] :=
        lines_entry_line (by decide : ':' ∈ ":".toList) (by decide) hhost htarget
      rw [List.flatMap_cons, hline, List.map_append, List.map_singleton, hcut]
      exact (ih h).cons e

theorem overlays_of_parts {p : Parts} (h : parts hosts.world env args = .ok p) :
    ∃ mounted, (Script.overlays hosts (overlay_lines env)).result = .ok mounted ∧ p.overlay_args = Script.mounts mounted := by
  obtain ⟨-, -, hadded⟩ := parts_fields h
  rw [overlay_args, ← Script.result_overlays] at hadded
  unfold overlay_lines
  cases hread : (Script.overlays hosts (Text.lines (overlay_files env))).result with
  | error refusal =>
    rw [hread] at hadded
    cases hadded
  | ok mounted =>
    rw [hread] at hadded
    exact ⟨mounted, rfl, (Except.ok.inj hadded).symm⟩

theorem overlay_lines_perm (hne : entries ≠ []) (hvalue : getenv env "AIRO_VLLM_OVERLAY_FILES" "" = joined ":" entries) :
    (overlay_lines env).Perm (entries.flatMap fun e => Text.lines (entry_line ":" e)) := by
  have hnone : joined ":" entries ≠ "none" := by
    intro h
    have := mem_joined (by decide : ':' ∈ ":".toList) hne
    rw [h] at this
    revert this
    decide
  rw [overlay_lines, overlay_files, hvalue, none_is_empty, if_neg hnone]
  exact lines_joined hne

theorem mounts_exactly_iff (hne : entries ≠ []) (hvalue : getenv env "AIRO_VLLM_OVERLAY_FILES" "" = joined ":" entries) :
    MountsExactly hosts env args entries ↔ Configured env ∧ (Complete hosts env entries → ∀ e ∈ entries, Separable e) := by
  have hlines := overlay_lines_perm hne hvalue
  have hok : (∃ p, parts hosts.world env args = .ok p) ↔ _ := parts_ok_iff_complete hlines
  rw [← cut_lines_perm_iff hlines]
  cases hp : parts hosts.world env args with
  | error refusal =>
    obtain ⟨hresult, hnever⟩ := script_of_parts_error hp
    rw [hp] at hok
    refine ⟨fun h => ?_, fun h => .refused refusal hresult ((parts_refusal hp).mpr h.1) hnever⟩
    cases h with
    | refused refusal' result status before =>
      rw [hresult] at result
      cases result
      have hconfigured : Configured env := (parts_refusal hp).mp status
      refine ⟨hconfigured, fun hcomplete => ?_⟩
      obtain ⟨p, hp⟩ := hok.mpr ⟨hconfigured, hcomplete⟩
      cases hp
    | mounted p parts mounted read added exact =>
      rw [hp] at parts
      cases parts
  | ok p =>
    obtain ⟨hconfigured, hcomplete⟩ := hok.mp ⟨p, hp⟩
    refine ⟨fun h => ⟨hconfigured, fun _ => ?_⟩, fun h => ?_⟩
    · cases h with
      | refused refusal result status before => exact absurd before (not_never_of_parts hp)
      | mounted p' parts mounted read added exact =>
        rw [← overlays_pairs read]
        exact exact
    · obtain ⟨mounted, hread, hadded⟩ := overlays_of_parts hp
      refine .mounted p hp mounted hread hadded ?_
      rw [overlays_pairs hread]
      exact h.2 hcomplete

/-- **The overlays of a profile.** With its image and its model root the wrapper mounts them exactly or not at all, if and
only if something is missing on this host, or no host path has a colon or a newline in it and no target a newline. -/
theorem overlay_files_iff (hprofile : profile.get .overlay_files = string_map entries) (hne : entries ≠ [])
    (hpairs : Vllm.overlay_files_pairs host profile = some pairs) (hcarried : Carried "AIRO_VLLM_OVERLAY_FILES" pairs env) :
    MountsExactly hosts env args entries ↔ Configured env ∧ (Complete hosts env entries → ∀ e ∈ entries, Separable e) := by
  rw [Vllm.overlay_files_pairs, hprofile] at hpairs
  exact mounts_exactly_iff hne (lookup_carried (by decide : ':' ∈ ":".toList) hne hpairs hcarried)

end

def overlay_profile (e : String × String) : Profile := List.toAList [⟨.overlay_files, string_map [e]⟩]

def overlay_launch (e : String × String) : Env := cluster_env "vllm" ++ [("AIRO_VLLM_OVERLAY_FILES", joined ":" [e])]

theorem overlay_launch_carried (e : String × String) :
    Carried "AIRO_VLLM_OVERLAY_FILES" [("AIRO_VLLM_OVERLAY_FILES", .str (joined ":" [e]))] (overlay_launch e) :=
  carried_joined (by decide : ':' ∈ ":".toList) rfl

theorem overlay_files_iff_patch : MountsExactly {} (overlay_launch ("/patch.py", "/opt/patch.py")) serve
    [("/patch.py", "/opt/patch.py")] := by
  have hpairs : Vllm.overlay_files_pairs bare_host (overlay_profile ("/patch.py", "/opt/patch.py")) =
      some [("AIRO_VLLM_OVERLAY_FILES", .str (joined ":" [("/patch.py", "/opt/patch.py")]))] := rfl
  refine (overlay_files_iff rfl (List.cons_ne_nil _ _) hpairs (overlay_launch_carried _)).mpr ⟨?_, fun _ => by decide⟩
  exact ⟨⟨"vllm:latest", rfl, by decide⟩, .inr rfl⟩

/-- A target of two lines, the second of which reads as an overlay of its own. -/
theorem newline_target_mounts_twice :
    overlay_args {} (overlay_launch ("/patch", "/opt/patch\n/etc:/opt/etc")) =
      .ok ["-v", "/patch:/opt/patch:ro", "-v", "/etc:/opt/etc:ro"] ∧
    ¬ MountsExactly {} (overlay_launch ("/patch", "/opt/patch\n/etc:/opt/etc")) serve
      [("/patch", "/opt/patch\n/etc:/opt/etc")] := by
  have hvalue : getenv (overlay_launch ("/patch", "/opt/patch\n/etc:/opt/etc")) "AIRO_VLLM_OVERLAY_FILES" "" =
      "/patch:/opt/patch\n/etc:/opt/etc" := by
    rw [overlay_launch, joined_singleton]
    decide
  have hlines : overlay_lines (overlay_launch ("/patch", "/opt/patch\n/etc:/opt/etc")) =
      ["/patch:/opt/patch", "/etc:/opt/etc"] := by
    rw [overlay_lines, overlay_files, hvalue]
    decide
  have hargs : overlay_args {} (overlay_launch ("/patch", "/opt/patch\n/etc:/opt/etc")) =
      .ok ["-v", "/patch:/opt/patch:ro", "-v", "/etc:/opt/etc:ro"] := by
    rw [overlay_args, ← overlay_lines, hlines]
    rfl
  refine ⟨hargs, fun h => ?_⟩
  rw [mounts_exactly_iff (List.cons_ne_nil _ _) (by rw [hvalue, joined_singleton]; rfl)] at h
  have hcomplete : Complete {} (overlay_launch ("/patch", "/opt/patch\n/etc:/opt/etc"))
      [("/patch", "/opt/patch\n/etc:/opt/etc")] := by
    refine ⟨.inl rfl, ?_⟩
    unfold Fits
    decide
  have := h.2 hcomplete
  revert this
  decide

end AiroAgent.VllmSlot
