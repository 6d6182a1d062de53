import AiroAgent.PeerRanks
import AiroAgent.VllmLaunch
import AiroAgent.VllmSlotRanks

/-!
# The identity of a multi-node load, from head to worker

The head writes the identity into the environment of a launch, `vllm-slot` turns
it into labels on the container of either rank, and the worker's agent reads the
labels of the rank it did not start. Only the word `--port` among the rendered
values, or a label with a tab in it, can break the path.
-/

namespace AiroAgent

open VllmSlot (Container)

/-! ## The environment the wrapper finds -/

theorem Vllm.hex_digit_not_space : ∀ n < 16, Text.is_space (Vllm.hex_digit n) = false := by decide

theorem Vllm.encode16_not_space {bytes : List UInt8} : ∀ c ∈ Vllm.encode16 bytes, Text.is_space c = false := by
  intro c hc
  obtain ⟨b, -, hb⟩ := List.mem_flatMap.mp hc
  simp only [List.mem_cons, List.not_mem_nil, or_false] at hb
  have hlt : b.toNat < 256 := b.toNat_lt
  rcases hb with rfl | rfl
  · exact Vllm.hex_digit_not_space _ (by omega)
  · exact Vllm.hex_digit_not_space _ (by omega)

theorem Vllm.cluster_id_not_space {host : Host} {port : Port} :
    ∀ c ∈ (Vllm.cluster_id host port).toList, Text.is_space c = false := by
  intro c hc
  simp only [Vllm.cluster_id, String.toList_append, String.toList_ofList, List.mem_append] at hc
  rcases hc with hc | hc
  · have hall : ("dep-".toList.all fun c => !Text.is_space c) = true := by decide
    simpa using List.all_eq_true.mp hall c hc
  · exact Vllm.encode16_not_space c (List.mem_of_mem_take hc)

theorem Vllm.cluster_id_ne_empty {host : Host} {port : Port} : Vllm.cluster_id host port ≠ "" := by
  have hdash : '-' ∈ (Vllm.cluster_id host port).toList := by simp [Vllm.cluster_id]
  exact Text.ne_empty_of_mem hdash

structure Identified (vars : List (String × String)) (id : String) (n : Int) (model_id : String) : Prop where
  mode : VllmSlot.cluster_mode vars = true
  id : VllmSlot.getenv vars "AIRO_VLLM_CLUSTER_ID" "" = id
  size : VllmSlot.getenv vars "AIRO_VLLM_NNODES" "" = toString n
  model : VllmSlot.getenv vars "AIRO_VLLM_SERVED_MODEL" "" = model_id

theorem identified_of_env {host : Host} {model : ModelRef} {profile : Profile} {port : Port} {n : Int}
    {cluster : ClusterConfig} {pairs : List (String × Val)} {vars : List (String × String)} (hid : model.id ≠ "")
    (h : Vllm.env host model profile (Vllm.cluster_env cluster ++ Vllm.cluster_identity_env host n port) = some pairs)
    (hv : port_env pairs = some vars) : Identified vars (Vllm.cluster_id host port) n model.id := by
  obtain ⟨ce, of, -, -, rfl⟩ := Vllm.env_eq_some.mp h
  refine ⟨?_, ?_, ?_, ?_⟩
  · have hmode : VllmSlot.getenv vars "AIRO_VLLM_CLUSTER" "0" = "1" :=
      VllmSlot.getenv_of_lookup (port_env_lookup hv rfl (by decide)) (by decide)
    simp [VllmSlot.cluster_mode, hmode]
  · exact VllmSlot.getenv_of_lookup (port_env_lookup hv rfl Vllm.cluster_id_ne_empty) Vllm.cluster_id_ne_empty
  · exact VllmSlot.getenv_of_lookup (port_env_lookup hv rfl (Text.toString_ne_empty n)) (Text.toString_ne_empty n)
  · exact VllmSlot.getenv_of_lookup (port_env_lookup hv rfl hid) hid

/-! ## The labels of a rank -/

section
variable {vars : List (String × String)} {args : List String} {id model_id : String} {n : Int} {c : Container}
  {rank : String}

structure OfRank (vars : List (String × String)) (args : List String) (rank : String) (c : Container) : Prop where
  labels : c.labels = VllmSlot.cluster_labels vars args ++ VllmSlot.label "airo.cluster.rank" rank

theorem OfRank.label_pairs (hc : OfRank vars args rank c) (h : Identified vars id n model_id) :
    VllmSlot.label_pairs c.labels = [("airo.cluster.id", id), ("airo.cluster.size", toString n),
      ("airo.cluster.model", model_id), ("airo.slot.port", VllmSlot.slot_port args), ("airo.cluster.rank", rank)] := by
  have hrank : VllmSlot.label_pairs (VllmSlot.label "airo.cluster.rank" rank ++ []) = [("airo.cluster.rank", rank)] :=
    VllmSlot.label_pairs_label (by decide)
  rw [List.append_nil] at hrank
  rw [hc.labels, VllmSlot.cluster_labels, if_pos h.mode, h.id, h.size, h.model]
  simp only [List.append_assoc]
  rw [VllmSlot.label_pairs_label (by decide), VllmSlot.label_pairs_label (by decide),
    VllmSlot.label_pairs_label (by decide), VllmSlot.label_pairs_label (by decide), hrank]

theorem OfRank.label (hc : OfRank vars args rank c) (h : Identified vars id n model_id) (key : String) :
    c.label key = ([("airo.cluster.rank", rank), ("airo.slot.port", VllmSlot.slot_port args),
      ("airo.cluster.model", model_id), ("airo.cluster.size", toString n), ("airo.cluster.id", id)].lookup key).getD "" := by
  rw [Container.label, hc.label_pairs h]
  rfl

/-- A value that stays one field of one line. -/
def OneField (s : String) : Prop := '\t' ∉ s.toList ∧ '\n' ∉ s.toList

theorem oneField_of_no_space {s : String} (h : ∀ c ∈ s.toList, Text.is_space c = false) : OneField s :=
  ⟨fun hm => absurd (h _ hm) (by decide), fun hm => absurd (h _ hm) (by decide)⟩

theorem oneField_toString (n : Int) : OneField (toString n) :=
  oneField_of_no_space fun _ hc => Text.not_space_of_mem_toString hc

theorem OfRank.fields (hc : OfRank vars args rank c) (h : Identified vars id n model_id) (hid : OneField id)
    (hrank : OneField rank) (hmodel : OneField model_id) (hport : OneField (VllmSlot.slot_port args)) :
    ∀ field ∈ ["id", "rank", "size", "model", "port"], OneField (c.label (PeerRanks.label_for field)) := by
  intro field hfield
  simp only [List.mem_cons, List.not_mem_nil, or_false] at hfield
  rw [hc.label h]
  rcases hfield with rfl | rfl | rfl | rfl | rfl
  · exact hid
  · exact hrank
  · exact oneField_toString n
  · exact hmodel
  · exact hport

theorem OfRank.parse_line {host : Host} (hc : OfRank vars args rank c) (h : Identified vars id n model_id)
    (hid : OneField id) (hrank : OneField rank) (hmodel : OneField model_id)
    (hport : OneField (VllmSlot.slot_port args)) :
    PeerRanks.parse_line host (PeerRanks.ps_line c) =
      PeerRanks.build host id rank (toString n) model_id (VllmSlot.slot_port args) := by
  have hfields := hc.fields h hid hrank hmodel hport
  rw [PeerRanks.parse_line_ps_line fun field hf => (hfields field hf).1,
    hc.label h, hc.label h, hc.label h, hc.label h, hc.label h]
  rfl

theorem OfRank.discover {host : Host} (hc : OfRank vars args rank c) (h : Identified vars id n model_id)
    (hid : OneField id) (hrank : OneField rank) (hmodel : OneField model_id)
    (hport : OneField (VllmSlot.slot_port args)) :
    PeerRanks.discover host (PeerRanks.ps [c]) = PeerRanks.parse_line host (PeerRanks.ps_line c) := by
  have hfields := hc.fields h hid hrank hmodel hport
  have hline : '\n' ∉ (PeerRanks.ps_line c).toList := by
    refine Text.not_mem_join (by decide) fun s hs => ?_
    obtain ⟨field, hf, rfl⟩ := List.mem_map.mp hs
    exact (hfields field hf).2
  have hshown : c.labelled "airo.cluster.id" = true := by simp [Container.labelled, hc.label_pairs h]
  rw [PeerRanks.discover_ps (by simpa using hline)]
  simp [hshown]

end

/-! ## The whole path -/

/-- A model id that survives trimming, a tab-separated line and a newline-separated listing. -/
structure ServedId (id : String) : Prop where
  nonempty : id ≠ ""
  trimmed : Text.trim id = id
  no_tab : '\t' ∉ id.toList
  no_newline : '\n' ∉ id.toList

structure PeerOf (head : Host) (model : ModelRef) (port : Port) (n : Int) (slot : SlotInfo) : Prop where
  cluster_id : slot.cluster_id = some (Vllm.cluster_id head port)
  tp_rank : slot.tp_rank = some 1
  tp_size : slot.tp_size = some n
  resident_model : slot.resident_model = some model.id
  port : slot.port = port

/-- The launch runs two ranks. The line of rank 1, and a poll that lists its container, read as one peer of
this load; the line of rank 0 reads as nothing; the head reports the same identity for its own slot. -/
def IdentityKept (head worker : Host) (model : ModelRef) (profile : Profile) (port : Port) (n : Int) : Prop :=
  ∃ args vars rank0 rank1 slot, Vllm.Launches head model profile port args vars ∧
    VllmSlot.containers vars args = [rank0, rank1] ∧
    PeerRanks.parse_line worker (PeerRanks.ps_line rank1) = [slot] ∧
    PeerRanks.discover worker (PeerRanks.ps [rank1]) = [slot] ∧
    PeerOf head model port n slot ∧
    PeerRanks.parse_line head (PeerRanks.ps_line rank0) = [] ∧
    Vllm.cluster_info head (Vllm.resolve_profile head model profile) port = some ⟨Vllm.cluster_id head port, 0, n⟩

section
variable {head worker : Host} {model : ModelRef} {profile : Profile} {port : Port} {n : Int} {cluster : ClusterConfig}

theorem cluster_launch_eq (hc : head.vllm_cluster = some cluster) (hn : profile.get .nnodes = .int n) (h1 : 1 < n) :
    Vllm.cluster_launch head (Vllm.resolve_profile head model profile) port =
      .ok (Vllm.cluster_argv cluster n port, Vllm.cluster_env cluster ++ Vllm.cluster_identity_env head n port) := by
  rw [Vllm.cluster_launch, Vllm.resolve_nnodes, hn]
  simp only [hc, if_neg (show ¬ n ≤ 1 by omega)]

theorem cluster_info_eq (hn : profile.get .nnodes = .int n) (h1 : 1 < n) :
    Vllm.cluster_info head (Vllm.resolve_profile head model profile) port = some ⟨Vllm.cluster_id head port, 0, n⟩ := by
  rw [Vllm.cluster_info, Vllm.resolve_nnodes, hn]
  exact if_pos h1

theorem cluster_env_values :
    ∀ p ∈ Vllm.cluster_env cluster ++ Vllm.cluster_identity_env head n port, p.2.env_value = true := by
  simp [Vllm.cluster_env, Vllm.cluster_identity_env, Val.env_value]

theorem build_peer (hid : ServedId model.id) :
    ∃ slot, PeerRanks.build worker (Vllm.cluster_id head port) "1" (toString n) model.id (toString port) = [slot] ∧
      PeerOf head model port n slot := by
  have hrank : PeerRanks.to_int "1" = some 1 := PeerRanks.to_int_toString 1
  have htrim : Text.trim (Vllm.cluster_id head port) = Vllm.cluster_id head port :=
    Text.trim_of_no_space Vllm.cluster_id_not_space
  simp only [PeerRanks.build, hrank, PeerRanks.to_int_toString, htrim,
    PeerRanks.presence_of_trimmed hid.trimmed hid.nonempty]
  rw [if_pos ⟨by decide, Vllm.cluster_id_ne_empty⟩]
  exact ⟨_, rfl, rfl, rfl, rfl, rfl, rfl⟩

theorem build_rank_zero :
    PeerRanks.build worker (Vllm.cluster_id head port) "0" (toString n) model.id (toString port) = [] := by
  have hrank : PeerRanks.to_int "0" = some 0 := PeerRanks.to_int_toString 0
  simp [PeerRanks.build, hrank, PeerRanks.to_int_toString, -Int.toString_eq_repr]

theorem identity_kept (hc : head.vllm_cluster = some cluster) (hn : profile.get .nnodes = .int n) (h1 : 1 < n)
    (hid : ServedId model.id) (hr : Vllm.Renders head (Vllm.resolve_profile head model profile))
    (hk : Vllm.KeepsPort head (Vllm.resolve_profile head model profile)) :
    IdentityKept head worker model profile port n := by
  have hlaunch : Vllm.cluster_launch head (Vllm.resolve_profile head model profile) port = _ := cluster_launch_eq hc hn h1
  obtain ⟨args, vars, hl⟩ := (Vllm.launches_iff_renders hlaunch (by simp [Vllm.cluster_argv_words])
    cluster_env_values).mpr hr
  obtain ⟨hargs, pairs, hpairs, hvars⟩ := (Vllm.launches_iff hlaunch).mp hl
  have hident : Identified vars (Vllm.cluster_id head port) n model.id := identified_of_env hid.nonempty hpairs hvars
  have hport : VllmSlot.slot_port args = toString port := Vllm.slot_port_argv hk hc hargs
  obtain ⟨slot, hslot, hpeer⟩ : ∃ slot, PeerRanks.build worker (Vllm.cluster_id head port) "1" (toString n) model.id
      (toString port) = [slot] ∧ PeerOf head model port n slot := build_peer hid
  have hid' : OneField (Vllm.cluster_id head port) := oneField_of_no_space Vllm.cluster_id_not_space
  have hmodel : OneField model.id := ⟨hid.no_tab, hid.no_newline⟩
  have hport' : OneField (VllmSlot.slot_port args) := hport ▸ oneField_toString port
  let rank (r : String) (words : List String) : Container :=
    { name := VllmSlot.name args, labels := VllmSlot.cluster_labels vars args ++ VllmSlot.label "airo.cluster.rank" r,
      args := words }
  have hrank0 : OfRank vars args "0" (rank "0" args) := ⟨rfl⟩
  have hrank1 : OfRank vars args "1" (rank "1" (VllmSlot.worker_args args)) := ⟨rfl⟩
  have hline : PeerRanks.parse_line worker (PeerRanks.ps_line (rank "1" (VllmSlot.worker_args args))) = [slot] := by
    rw [hrank1.parse_line hident hid' ⟨by decide, by decide⟩ hmodel hport', hport, hslot]
  have hzero : PeerRanks.parse_line head (PeerRanks.ps_line (rank "0" args)) = [] := by
    rw [hrank0.parse_line hident hid' ⟨by decide, by decide⟩ hmodel hport', hport, build_rank_zero]
  refine ⟨args, vars, rank "0" args, rank "1" (VllmSlot.worker_args args), slot, hl, ?_, hline, ?_, hpeer, hzero, ?_⟩
  · exact if_pos hident.mode
  · rw [hrank1.discover hident hid' ⟨by decide, by decide⟩ hmodel hport', hline]
  · exact cluster_info_eq hn h1

/-! ## One host -/

theorem cluster_launch_single (h : ∀ n, profile.get .nnodes = .int n → n ≤ 1) :
    Vllm.cluster_launch head (Vllm.resolve_profile head model profile) port = .ok ([], []) := by
  rw [Vllm.cluster_launch, Vllm.resolve_nnodes]
  split
  · next n hn => exact if_pos (h n hn)
  · rfl

theorem single_mode {pairs : List (String × Val)} {vars : List (String × String)}
    (h : Vllm.env head model profile [] = some pairs) (hv : port_env pairs = some vars) :
    VllmSlot.cluster_mode vars = false := by
  obtain ⟨ce, of, hce, hof, rfl⟩ := Vllm.env_eq_some.mp h
  have hkey : "AIRO_VLLM_CLUSTER" ∉ ([("VLLM_IMAGE", (profile.get .image).or ((Vllm.vllm_image head).or (.str ""))),
      ("AIRO_AGENT_MODEL_ROOT", Vllm.model_root head), ("AIRO_VLLM_SERVED_MODEL", .str model.id)] ++
      [] ++ ce ++ of ++ Vllm.wrapper_overrides profile).map Prod.fst := by
    intro hm
    obtain ⟨p, hp, hname⟩ := List.mem_map.mp hm
    simp only [List.append_nil, List.mem_append, List.mem_cons, List.not_mem_nil, or_false] at hp
    rcases hp with (((rfl | rfl | rfl) | hp) | hp) | hp
    · simp at hname
    · simp at hname
    · simp at hname
    · exact absurd ((Vllm.mem_entry_lines hce p hp).1.symm.trans hname) (by decide)
    · exact absurd ((Vllm.mem_entry_lines hof p hp).1.symm.trans hname) (by decide)
    · exact absurd (hname ▸ Vllm.mem_wrapper_overrides hp) (by decide)
  have hlookup : vars.lookup "AIRO_VLLM_CLUSTER" = none := port_env_lookup_none hv hkey
  simp [VllmSlot.cluster_mode, VllmSlot.getenv, hlookup]

theorem unlabelled_single {args : List String} {vars : List (String × String)}
    (h : ∀ n, profile.get .nnodes = .int n → n ≤ 1) (hl : Vllm.Launches head model profile port args vars) :
    ∀ c ∈ VllmSlot.containers vars args, c.labels = [] := by
  obtain ⟨-, pairs, hpairs, hvars⟩ := (Vllm.launches_iff (cluster_launch_single h)).mp hl
  intro c hc
  rw [VllmSlot.containers, if_neg (by simp [single_mode hpairs hvars])] at hc
  obtain rfl := List.mem_singleton.mp hc
  rfl

end

/-- With a cluster config, a load on more than one host keeps its identity from head to worker as long as its
values can be handed over and none of them puts the word `--port` on the command line; a load on one host has
no label. The containers are those of the two commands the wrapper comes to. -/
theorem identity_survives (head worker : Host) (model : ModelRef) (profile : Profile) (port : Port) :
    (∀ cluster n, head.vllm_cluster = some cluster → profile.get .nnodes = .int n → 1 < n → ServedId model.id →
      Vllm.Renders head (Vllm.resolve_profile head model profile) →
      Vllm.KeepsPort head (Vllm.resolve_profile head model profile) →
      IdentityKept head worker model profile port n) ∧
    ((∀ n, profile.get .nnodes = .int n → n ≤ 1) → ∀ args vars, Vllm.Launches head model profile port args vars →
      ∀ c ∈ VllmSlot.containers vars args, c.labels = []) ∧
    ∀ world args vars rank0 rank1, VllmSlot.launch world vars args = .ok (.cluster rank0 rank1) →
      VllmSlot.containers vars args = [rank0.container args, rank1.container (VllmSlot.worker_args args)] :=
  ⟨fun _ _ hc hn h1 hid hr hk => identity_kept hc hn h1 hid hr hk, fun h _ _ hl => unlabelled_single h hl,
    fun _ _ _ _ _ h => VllmSlot.launch_containers h⟩

/-! ## Two hosts on one fabric -/

def fabric : ClusterConfig where
  worker_ssh := "ops@192.168.100.11"
  master_ip := "192.168.100.10"
  worker_ip := some "192.168.100.11"
  nccl_if := "enP2p1s0f1np1"
  nccl_hca := none
  gid_index := some "5"

/-- The digest is that of `spark-a:8081`. -/
def spark_a : Host where
  slots := [8081]
  host_id := "spark-a"
  vllm_image := some "vllm/vllm-openai:latest"
  vllm_cluster := some fabric
  model_roots := ["/hf/hub"]
  sha256 := fun _ => #v[179, 152, 0, 194, 111, 248, 195, 246, 229, 107, 14, 143, 0, 135, 143, 89,
    11, 84, 160, 209, 120, 100, 202, 123, 108, 116, 67, 29, 85, 159, 47, 48]
  float_to_string := fun m _ => toString m

def spark_b : Host := { spark_a with slots := [], host_id := "spark-b", vllm_cluster := none }

def big : ModelRef where
  id := "org/big:fp8"
  path := "/hf/hub/models--org--big/snapshots/1"
  engine := .vllm

def two_nodes : Profile := AList.insert .nnodes (.int 2) ∅

theorem served_big : ServedId big.id := ⟨by decide, by decide, by decide, by decide⟩

theorem identity_survives_spark :
    IdentityKept spark_a spark_b big two_nodes 8081 2 ∧
      ∀ args vars, Vllm.Launches spark_a big ∅ 8081 args vars → ∀ c ∈ VllmSlot.containers vars args, c.labels = [] := by
  have hrenders : Vllm.Renders spark_a (Vllm.resolve_profile spark_a big two_nodes) :=
    ⟨by decide, by decide, by decide, by decide, by decide, by decide⟩
  have hkeeps : Vllm.KeepsPort spark_a (Vllm.resolve_profile spark_a big two_nodes) := by
    refine ⟨by decide, by decide, ?_⟩
    intro cluster hc
    obtain rfl : fabric = cluster := Option.some.inj hc
    decide
  refine ⟨(identity_survives spark_a spark_b big two_nodes 8081).1 fabric 2 rfl rfl (by decide) served_big hrenders hkeeps,
    (identity_survives spark_a spark_b big ∅ 8081).2.1 ?_⟩
  intro n hn
  cases hn

/-! ## What the exclusion of one word leaves open -/

def reported_ports (head worker : Host) (model : ModelRef) (profile : Profile) (port : Port) : List Port :=
  match Vllm.launch_spec head model profile port with
  | .error _ => []
  | .ok spec =>
    match port_env spec.env with
    | none => []
    | some vars => ((VllmSlot.containers vars spec.argv).drop 1).flatMap
        fun c => (PeerRanks.parse_line worker (PeerRanks.ps_line c)).map (·.port)

theorem IdentityKept.reported_ports {head worker : Host} {model : ModelRef} {profile : Profile} {port : Port} {n : Int}
    (h : IdentityKept head worker model profile port n) : reported_ports head worker model profile port = [port] := by
  obtain ⟨args, vars, rank0, rank1, slot, ⟨spec, hspec, rfl, hvars⟩, hranks, hline, -, hpeer, -, -⟩ := h
  simp [AiroAgent.reported_ports, hspec, hvars, hranks, hline, hpeer.port]

/-- No string value of the request and no word of its `extra_argv` is `--port`. -/
def NoPortWord (profile : Profile) : Prop :=
  (∀ k, profile.get k ≠ .str "--port") ∧ ∀ v ∈ (profile.get .extra_argv).wrap, v ≠ .str "--port"

theorem NoPortWord.insert {p : Profile} {k : Key} {v : Val} (hp : NoPortWord p) (hk : k ≠ .extra_argv)
    (hv : v ≠ .str "--port") : NoPortWord (p.insert k v) := by
  refine ⟨fun k' => ?_, ?_⟩
  · rw [Profile.get_insert]
    split
    · exact hv
    · exact hp.1 k'
  · rw [Profile.get_insert, if_neg (Ne.symm hk)]
    exact hp.2

/-- A load on two hosts, with nothing in the request to exclude, that loses its identity on the way. -/
structure Lost (head : Host) (profile : Profile) : Prop where
  fabric : head.vllm_cluster ≠ none
  nnodes : profile.get .nnodes = .int 2
  served : ServedId big.id
  no_port_word : NoPortWord profile
  lost : ¬ IdentityKept head spark_b big profile 8081 2

/-- `--port` from the host's default `extra_argv`, from the cluster config and from a list that renders to it,
and a `ctx` that does not render at all. -/
theorem identity_lost :
    Lost { spark_a with vllm_extra_argv := some ["--port", "9000"] } two_nodes ∧
      Lost { spark_a with vllm_cluster := some { fabric with master_ip := "--port" } } two_nodes ∧
      Lost spark_a (AList.insert .ctx (.list [.str "--", .str "port"]) two_nodes) ∧
      Lost spark_a (AList.insert .ctx (.map []) two_nodes) := by
  have hempty : NoPortWord ∅ := ⟨fun k hk => Val.noConfusion hk, fun v hv => absurd hv List.not_mem_nil⟩
  have htwo : NoPortWord two_nodes := hempty.insert (by decide) (fun h => Val.noConfusion h)
  have hlist := htwo.insert (k := .ctx) (v := .list [.str "--", .str "port"]) (by decide) (fun h => Val.noConfusion h)
  have hmap := htwo.insert (k := .ctx) (v := .map []) (by decide) (fun h => Val.noConfusion h)
  refine ⟨⟨?_, rfl, served_big, htwo, ?_⟩, ⟨?_, rfl, served_big, htwo, ?_⟩, ⟨?_, rfl, served_big, hlist, ?_⟩,
    ⟨?_, rfl, served_big, hmap, ?_⟩⟩
  · exact Option.some_ne_none _
  · exact fun h => absurd h.reported_ports (by decide)
  · exact Option.some_ne_none _
  · exact fun h => absurd h.reported_ports (by decide)
  · exact Option.some_ne_none _
  · exact fun h => absurd h.reported_ports (by decide)
  · exact Option.some_ne_none _
  · exact fun h => absurd h.reported_ports (by decide)

end AiroAgent
