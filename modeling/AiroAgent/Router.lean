import AiroAgent.Channel
import AiroAgent.FleetInv
import AiroAgent.HonoredKeys

/-!
# Profiles over HTTP

`POST /load` takes a JSON profile through a whitelist of keys, and `GET /slots`
gives the effective one back. What is reported can be posted again: it resolves
to itself, and to the launch it came from.
-/

namespace AiroAgent

namespace Router

def profile_keys : List Key := [
  .ctx, .parallel, .extra_argv, .disable_thinking,
  .temperature, .top_p, .repeat_penalty, .presence_penalty, .frequency_penalty,
  .dry_multiplier,
  .ngl, .n_cpu_moe, .flash_attn, .cache_type_k, .cache_type_v, .spec_type, .jinja,
  .chat_template, .reasoning_budget, .reasoning_format, .ld_library_path, .mmproj,
  .tensor_parallel_size, .gpu_memory_utilization, .dtype, .quantization,
  .kv_cache_dtype, .trust_remote_code,
  .nnodes, .image, .container_env, .entrypoint, Key.cmd_prefix, .encoding_file, .overlay_files]

/-- `String.to_atom/1` on the whitelist. -/
def profile_key (s : String) : Option Key := profile_keys.find? fun k => k.atom = s

def atomize (kv : String × Val) : Option (Sigma fun _ : Key => Val) := (profile_key kv.1).map fun k => ⟨k, kv.2⟩

/-- Anything but an object is the empty profile. -/
def atomize_profile : Val → Profile
  | .map l => (l.filterMap atomize).toAList
  | _ => ∅

def profile_json (p : Profile) : Val := .map (p.entries.map fun e => (e.1.atom, e.2))

/-- The profile of a slot of `GET /slots`, in the body of a `POST /load`. -/
def repost (info : SlotInfo) : Profile := atomize_profile (profile_json (Channel.to_payload info).profile)

variable {p : Profile} {k : Key} {v : Val}

theorem profile_key_atom (h : k ∈ profile_keys) : profile_key k.atom = some k := by
  have hall : ∀ k ∈ profile_keys, profile_key k.atom = some k := by decide
  exact hall k h

theorem profile_key_mem {s : String} (h : profile_key s = some k) : k ∈ profile_keys := List.mem_of_find?_eq_some h

/-- Every key is one `POST /load` accepts. -/
def Accepted (p : Profile) : Prop := ∀ k v, p.lookup k = some v → k ∈ profile_keys

theorem atomize_profile_accepted (body : Val) : Accepted (atomize_profile body) := by
  intro k v h
  cases body with
  | map l =>
    simp only [atomize_profile, AList.lookup_to_alist] at h
    obtain ⟨kv, -, hkv⟩ := List.mem_filterMap.mp (List.of_mem_dlookup h)
    obtain ⟨k', hk', he⟩ := Option.map_eq_some_iff.mp hkv
    cases he
    exact profile_key_mem hk'
  | _ => cases h

theorem Accepted.merge {q : Profile} (hp : Accepted p) (hq : Accepted q) : Accepted (p.merge q) := by
  intro k v h
  rw [Profile.lookup_merge] at h
  obtain h | ⟨_, h⟩ := Option.or_eq_some_iff.mp h
  · exact hq k v h
  · exact hp k v h

theorem Accepted.reject_nil (hp : Accepted p) : Accepted p.reject_nil := fun k v h =>
  hp k v (Profile.mem_reject_nil.mp h).1

/-- Only the names of the keys go over the wire, and the whitelist knows them all. -/
theorem atomize_profile_json (h : Accepted p) : Profile.Same (atomize_profile (profile_json p)) p := by
  have hentries : (p.entries.map fun e => (e.1.atom, e.2)).filterMap atomize = p.entries := by
    rw [List.filterMap_map]
    conv_rhs => rw [← List.filterMap_some (l := p.entries)]
    apply List.filterMap_congr
    intro e he
    have hk := h e.1 e.2 (AList.mem_lookup_iff.mpr he)
    simp [atomize, profile_key_atom hk]
  intro k
  simp only [atomize_profile, profile_json, hentries, AList.lookup_to_alist]
  rfl

end Router

/-! ## Resolving twice -/

section
variable {host : Host} {model : ModelRef} {p q : Profile} {k : Key} {port : Port}

open Router (Accepted)

theorem LlamaCpp.default_profile_accepted : Accepted (LlamaCpp.default_profile host model) := by
  have hkeys : ∀ k ∈ [Key.ngl, .flash_attn, .cache_type_k, .cache_type_v, .parallel, .jinja, .spec_type,
      .reasoning_budget, .dry_multiplier, .ld_library_path], k ∈ Router.profile_keys := by decide
  intro k v h
  rw [LlamaCpp.default_profile, AList.lookup_to_alist] at h
  exact hkeys k (List.mem_map_of_mem (f := Sigma.fst) (List.of_mem_dlookup h))

theorem Vllm.default_profile_accepted : Accepted (Vllm.default_profile host model) := by
  have hkeys : ∀ k ∈ [Key.tensor_parallel_size, .dtype, .trust_remote_code, .ctx, .extra_argv],
      k ∈ Router.profile_keys := by decide
  intro k v h
  rw [Vllm.default_profile, AList.lookup_to_alist] at h
  exact hkeys k (List.mem_map_of_mem (f := Sigma.fst) (List.of_mem_dlookup h))

/-- What is merged over the defaults already has them. -/
theorem LlamaCpp.resolve_profile_twice (h : Profile.Same q (LlamaCpp.resolve_profile host model p)) :
    Profile.Same (LlamaCpp.resolve_profile host model q) q := by
  intro k
  rw [LlamaCpp.resolve_profile, Profile.lookup_merge, h k, LlamaCpp.resolve_profile, Profile.lookup_merge]
  cases p.lookup k <;> cases (LlamaCpp.default_profile host model).lookup k <;> rfl

/-- The nulls of an effective profile are defaults, and come back from there. -/
theorem Vllm.resolve_profile_twice (h : Profile.Same q (Vllm.resolve_profile host model p)) :
    Profile.Same (Vllm.resolve_profile host model q) q := by
  intro k
  have hk : q.lookup k = (p.reject_nil.lookup k).or ((Vllm.default_profile host model).lookup k) := by
    rw [h k, Vllm.resolve_profile, Profile.lookup_merge]
  rw [Vllm.resolve_profile, Profile.lookup_merge]
  by_cases hnil : q.lookup k = some .nil
  · rw [Profile.lookup_reject_nil hnil, Option.none_or, hnil]
    rw [hnil] at hk
    obtain hp | ⟨-, hd⟩ := Option.or_eq_some_iff.mp hk.symm
    · cases (Profile.mem_reject_nil.mp hp).2
    · exact hd
  · rw [Profile.lookup_reject_nil_of_ne hnil, hk]
    cases p.reject_nil.lookup k <;> cases (Vllm.default_profile host model).lookup k <;> rfl

namespace Instance

/-- An adapter without `resolve_profile/2` would leave the profile as it is. -/
def resolved_profile (host : Host) (model : ModelRef) (profile : Profile) : Profile :=
  match model.engine with
  | .llama_cpp => LlamaCpp.resolve_profile host model profile
  | .vllm => Vllm.resolve_profile host model profile
  | .other _ => profile

theorem resolved_profile_accepted (h : Accepted p) : Accepted (resolved_profile host model p) := by
  unfold resolved_profile
  split
  · exact LlamaCpp.default_profile_accepted.merge h
  · exact Vllm.default_profile_accepted.merge h.reject_nil
  · exact h

theorem resolved_profile_twice (h : Profile.Same q (resolved_profile host model p)) :
    Profile.Same (resolved_profile host model q) q := by
  unfold resolved_profile at h ⊢
  split at h
  · exact LlamaCpp.resolve_profile_twice h
  · exact Vllm.resolve_profile_twice h
  · exact fun k => rfl

theorem launch_spec_twice (h : Profile.Same q (resolved_profile host model p)) :
    launch_spec host model q port = launch_spec host model p port := by
  have htwice := resolved_profile_twice h
  unfold launch_spec
  unfold resolved_profile at h htwice
  cases he : model.engine with
  | llama_cpp =>
    simp only [he] at h htwice ⊢
    refine LlamaCpp.launch_spec_of_get fun k _ => ?_
    rw [htwice.get k, h.get k]
  | vllm =>
    simp only [he] at h htwice ⊢
    refine Vllm.launch_spec_of_get fun k _ => ?_
    rw [htwice.get k, h.get k]
  | other atom => rfl

end Instance

end

/-! ## What `GET /slots` reports -/

namespace Fleet

open Router

/-- A `mark_up` comes from the `Instance` of the slot, with the profile it resolved at its start: what
`Serving.from_instance` finds where the instances are part of the run. -/
def FromInstance (host : Host) (s : Sys) (i : Input) : Prop :=
  ∀ pid props now port slot model, i = .mark_up pid props now → find_by_pid s.slots pid = some ⟨port, slot⟩ →
    slot.model = some model → props.resolved_profile = some (Instance.resolved_profile host model slot.profile)

def Resolved (host : Host) (s : Sys) : Prop :=
  ∀ port slot model, s.slots.lookup port = some slot → slot.status = .up → slot.model = some model →
    slot.props.resolved_profile = some (Instance.resolved_profile host model slot.profile)

variable {host : Host} {s s' : Sys} {i : Input} {h : History} {slot : Slot} {model : ModelRef} {port : Port}

theorem resolved_insert (hr : Resolved host s) {new : Slot} (hnew : ∀ model, new.status = .up → new.model = some model →
    new.props.resolved_profile = some (Instance.resolved_profile host model new.profile))
    (hslots : s'.slots = s.slots.insert port new) : Resolved host s' := by
  intro q slot model hl hup hm
  rw [hslots] at hl
  obtain ⟨-, rfl⟩ | ⟨-, hl⟩ := lookup_insert_cases hl
  · exact hnew model hup hm
  · exact hr q slot model hl hup hm

theorem resolved_step (hr : Resolved host s) (hi : FromInstance host s i) (hst : step host s i = some s') :
    Resolved host s' := by
  cases step_trans hst with
  | load_start | load_fail | down => exact resolved_insert hr (fun _ hup => by cases hup) rfl
  | @mark_up pid props now q slot hk hf hs =>
    refine @resolved_insert _ _ _ q hr { slot with status := .up, props := props } ?_ rfl
    intro model _ hm
    exact hi pid props now q slot model rfl hf hm
  | _ => exact hr

theorem run_resolved (hr : Run host h s) (hi : ∀ x ∈ h, FromInstance host x.1 x.2) : Resolved host s := by
  induction hr with
  | nil =>
    intro q slot model hl hup
    obtain rfl | ⟨pid, ref, hR⟩ := (inv_init host).slot q slot hl
    · cases hup
    · cases hR.launched
  | snoc _ hst ih =>
    exact resolved_step (ih fun x hx => hi x (List.mem_append_left _ hx)) (hi _ (List.mem_append_right _ (.head _))) hst

/-- **A reported profile is a fixed point.** Posted back, it resolves to itself and to the launch it was reported for. -/
theorem reported_profile_fixed (hr : Run host h s) (hi : ∀ x ∈ h, FromInstance host x.1 x.2)
    (hl : s.slots.lookup port = some slot) (hup : slot.status = .up) (hm : slot.model = some model) {body : Val}
    (hbody : slot.profile = atomize_profile body) (peers : List SlotInfo) :
    ∃ info ∈ handle_call_slots host peers s, info.port = port ∧
      Profile.Same (Instance.resolved_profile host model (repost info)) info.profile ∧
      Instance.launch_spec host model (repost info) port = Instance.launch_spec host model (atomize_profile body) port := by
  have hprofile : (slot_info host slot).profile = Instance.resolved_profile host model (atomize_profile body) := by
    show slot.props.resolved_profile.getD slot.profile = _
    rw [run_resolved hr hi port slot model hl hup hm, hbody]
    rfl
  have hacc : Accepted (Instance.resolved_profile host model (atomize_profile body)) :=
    Instance.resolved_profile_accepted (atomize_profile_accepted body)
  have hsame : Profile.Same (repost (slot_info host slot)) (Instance.resolved_profile host model (atomize_profile body)) := by
    unfold repost
    rw [show (Channel.to_payload (slot_info host slot)).profile = _ from hprofile]
    exact atomize_profile_json hacc
  refine ⟨slot_info host slot, ?_, ((run_inv hr).slot port slot hl).port_eq, ?_, Instance.launch_spec_twice hsame⟩
  · exact List.mem_append_left _ (List.mem_map.mpr ⟨⟨port, slot⟩, mem_entries_iff.mpr hl, rfl⟩)
  · intro k
    rw [Instance.resolved_profile_twice hsame k, hsame k, hprofile]

/-- A knob, a null, and a key no engine has. -/
def posted : Val := .map [("ctx", .int 4096), ("flash_attn", .nil), ("colour", .str "red")]

def load_posted : Input :=
  .load { model := model_a, port := 8081, profile := atomize_profile posted, start := .ok 0 0 none }

def up_posted : Input :=
  .mark_up 0 { resolved_profile := some (Instance.resolved_profile one_slot model_a (atomize_profile posted)) } 0

theorem reported_profile_fixed_posted : ∃ h s, Run one_slot h s ∧ h.map Prod.snd = [load_posted, up_posted] ∧
    ∃ info ∈ handle_call_slots one_slot [] s, info.port = 8081 ∧
      Profile.Same (Instance.resolved_profile one_slot model_a (repost info)) info.profile ∧
      Instance.launch_spec one_slot model_a (repost info) 8081 =
        Instance.launch_spec one_slot model_a (atomize_profile posted) 8081 := by
  have he : ∃ s slot, Machine.exec (step one_slot) (init one_slot) [load_posted, up_posted] = some s ∧
      s.slots.lookup 8081 = some slot ∧ slot.status = .up ∧ slot.model = some model_a ∧
      slot.profile = atomize_profile posted := ⟨_, _, rfl, rfl, rfl, rfl, rfl⟩
  obtain ⟨s, slot, he, hl, hup, hm, hp⟩ := he
  refine ⟨_, s, .of_exec he, rfl, reported_profile_fixed (.of_exec he) ?_ hl hup hm hp []⟩
  intro x hx pid props now port slot model hi hf hm
  obtain rfl | hx := List.mem_cons.mp hx
  · cases hi
  · cases List.mem_singleton.mp hx
    cases hi
    cases hf
    cases hm
    rfl

end Fleet

end AiroAgent
