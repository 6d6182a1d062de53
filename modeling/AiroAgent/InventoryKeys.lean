import AiroAgent.Inventory

/-!
# Ids as keys of the catalogue

An id is put together from the repository and a quant: neither the revision nor
the file is in it. Whether two artefacts have one id is told from what stands in
their paths, their file names and their configs: two snapshots of one repository
share one, and so do two files whose names show no quant.
-/

namespace AiroAgent

/-! ## Repositories and the directories they are read from -/

namespace HFCache

/-- `ORG--REPO`, of the first part of the path that is a `models--ORG--REPO`. -/
def folder (path : String) : Option String :=
  ((Paths.split path).find? (Text.starts_with · "models--")).map fun dir => String.ofList (dir.toList.drop "models--".length)

def with_slashes (name : String) : String := String.ofList (replace_dashes name.toList)

theorem repo_eq (path : String) : (repo_and_revision path).1 = (folder path).map with_slashes := by
  unfold repo_and_revision folder
  dsimp only
  cases (Paths.split path).find? (Text.starts_with · "models--") with
  | none => rfl
  | some dir =>
    simp only [Option.map_some, with_slashes, String.toList_ofList]
    rfl

theorem with_slashes_inj {name name' : String} (h : '/' ∉ name.toList) (h' : '/' ∉ name'.toList)
    (he : replace_dashes name.toList = replace_dashes name'.toList) : name = name' := by
  apply String.toList_inj.mp
  rw [← restore_replace_dashes h, he, restore_replace_dashes h']

end HFCache

/-! ## What an id is made of -/

def quant_label (host : Host) : Val → Option String
  | .nil => none
  | q => host.to_string q

/-- What an artefact goes by: the folder of its repository, and the quant that its file name or
its config shows; outside of any `models--` directory, a name of its own. -/
inductive Marks where
  | cached (folder : String) (quant : Option String)
  | loose (name : String)
  deriving DecidableEq

/-- The quant as it stands behind a repository. -/
def behind : Option String → String
  | none => ""
  | some quant => ":" ++ quant

namespace Marks

/-- The second folder is the first one with a colon and more behind it, and this more, with
the quant behind it, reads like the first one's quant. -/
def Extends (folder : String) (quant : Option String) (folder' : String) (quant' : Option String) : Prop :=
  ∃ rest, folder' = folder ++ ":" ++ rest ∧ quant = some (HFCache.with_slashes rest ++ behind quant')

/-- The name is that of the folder, which holds no two dashes in a row, with the quant behind it. -/
def Spells (folder : String) (quant : Option String) (name : String) : Prop :=
  Text.contains folder "--" = false ∧ name = folder ++ behind quant

/-- One folder and one quant, or one name outside of any. The rest is for names that run
into one another: a loose name like that of a folder, and a folder with a colon in it,
which the Hub has none of. -/
def Clash : Marks → Marks → Prop
  | cached folder quant, cached folder' quant' =>
    folder = folder' ∧ quant = quant' ∨ Extends folder quant folder' quant' ∨ Extends folder' quant' folder quant
  | loose name, loose name' => name = name'
  | cached folder quant, loose name => Spells folder quant name
  | loose name, cached folder quant => Spells folder quant name

def text : Marks → String
  | cached folder quant => HFCache.with_slashes folder ++ behind quant
  | loose name => name

/-- A part of a path has no slash. -/
def Named : Marks → Prop
  | cached folder _ => '/' ∉ folder.toList
  | loose name => '/' ∉ name.toList

section
variable {folder folder' name : String} {quant quant' : Option String}

theorem not_extends (h : ':' ∉ folder'.toList) : ¬ Extends folder quant folder' quant' := by
  intro ⟨rest, he, _⟩
  rw [he] at h
  simp at h

theorem clash_iff_of_no_colon (h : ':' ∉ folder.toList) (h' : ':' ∉ folder'.toList) :
    Clash (cached folder quant) (cached folder' quant') ↔ folder = folder' ∧ quant = quant' := by
  simp [Clash, not_extends h, not_extends h']

theorem behind_inj (h : behind quant = behind quant') : quant = quant' := by
  have hlist := congrArg String.toList h
  cases quant with
  | none =>
    cases quant' with
    | none => rfl
    | some q' => simp [behind] at hlist
  | some q =>
    cases quant' with
    | none => simp [behind] at hlist
    | some q' => simpa [behind] using h

theorem toList_text : (cached folder quant).text.toList = HFCache.replace_dashes folder.toList ++ (behind quant).toList := by
  simp [text, HFCache.with_slashes]

theorem text_eq_of_extends (h : Extends folder quant folder' quant') :
    (cached folder quant).text = (cached folder' quant').text := by
  obtain ⟨rest, rfl, rfl⟩ := h
  apply String.toList_inj.mp
  have happend := @HFCache.replace_dashes_append_cons ':' (by decide) folder.toList rest.toList
  simp [toList_text, behind, HFCache.with_slashes, happend]

/-- What one folder's repository has in front of the other's stands, in the id of the other, at the start of its quant. -/
theorem same_or_extends {s : List Char} (hn : '/' ∉ folder.toList) (hn' : '/' ∉ folder'.toList)
    (hr : HFCache.replace_dashes folder'.toList = HFCache.replace_dashes folder.toList ++ s)
    (hb : (behind quant).toList = s ++ (behind quant').toList) :
    folder = folder' ∧ quant = quant' ∨ Extends folder quant folder' quant' := by
  cases s with
  | nil =>
    rw [List.append_nil] at hr
    exact .inl ⟨HFCache.with_slashes_inj hn hn' hr.symm, behind_inj (String.toList_inj.mp hb)⟩
  | cons c s =>
    cases quant with
    | none => simp [behind] at hb
    | some q =>
      have hcolon : c = ':' ∧ q.toList = s ++ (behind quant').toList := by
        simpa [behind, eq_comm] using hb
      obtain ⟨rfl, hq⟩ := hcolon
      -- the folder that goes with what stands behind the colon
      have hfolder : folder'.toList = folder.toList ++ ':' :: HFCache.restore s := by
        rw [← HFCache.restore_replace_dashes hn', hr]
        have happend : HFCache.restore (HFCache.replace_dashes folder.toList ++ ':' :: s) =
            HFCache.restore (HFCache.replace_dashes folder.toList) ++ ':' :: HFCache.restore s := by simp [HFCache.restore]
        rw [happend, HFCache.restore_replace_dashes hn]
      have hs : HFCache.replace_dashes (HFCache.restore s) = s := by
        rw [hfolder, HFCache.replace_dashes_append_cons (by decide)] at hr
        simpa using hr
      refine .inr ⟨String.ofList (HFCache.restore s), String.toList_inj.mp ?_, congrArg some (String.toList_inj.mp ?_)⟩
      · simp [hfolder]
      · simp [HFCache.with_slashes, hs, hq]

theorem cached_text_eq_iff (hn : '/' ∉ folder.toList) (hn' : '/' ∉ folder'.toList) :
    (cached folder quant).text = (cached folder' quant').text ↔ Clash (cached folder quant) (cached folder' quant') := by
  constructor
  · intro he
    have htext := congrArg String.toList he
    rw [toList_text, toList_text] at htext
    -- one of the repositories is a prefix of the other
    rcases List.append_eq_append_iff.mp htext with ⟨s, hr, hb⟩ | ⟨s, hr, hb⟩
    · exact (same_or_extends hn hn' hr hb).imp_right .inl
    · rcases same_or_extends hn' hn hr hb with h | h
      · exact .inl ⟨h.1.symm, h.2.symm⟩
      · exact .inr (.inr h)
  · intro hc
    rcases hc with ⟨rfl, rfl⟩ | h | h
    · rfl
    · exact text_eq_of_extends h
    · exact (text_eq_of_extends h).symm

theorem spells_iff (hn : '/' ∉ name.toList) : (cached folder quant).text = name ↔ Spells folder quant name := by
  have hpair : Text.contains folder "--" = false ↔ ¬ ['-', '-'] <:+: folder.toList := by
    simp [Text.contains]
  rw [Spells, hpair]
  constructor
  · rintro rfl
    rw [toList_text, List.mem_append, not_or] at hn
    have hno := HFCache.no_pair_of_no_slash hn.1
    exact ⟨hno, by rw [text, HFCache.with_slashes, HFCache.replace_dashes_self hno, String.ofList_toList]⟩
  · rintro ⟨hno, rfl⟩
    rw [text, HFCache.with_slashes, HFCache.replace_dashes_self hno, String.ofList_toList]

end

theorem text_eq_iff {a b : Marks} (ha : a.Named) (hb : b.Named) : a.text = b.text ↔ Clash a b := by
  cases a with
  | cached folder quant =>
    cases b with
    | cached folder' quant' => exact cached_text_eq_iff ha hb
    | loose name => exact spells_iff hb
  | loose name =>
    cases b with
    | cached folder' quant' => exact eq_comm.trans (spells_iff ha)
    | loose name' => exact .rfl

end Marks

namespace Artefact

/-- The file that tells where an artefact is. -/
def marker : Artefact → String
  | gguf path => path
  | snapshot dir => Vllm.path_join dir "config.json"

def quant_of (host : Host) : Artefact → Option String
  | gguf path => LlamaCpp.quant_from_filename (Paths.basename path)
  | snapshot dir => quant_label host
      ((Vllm.get_in (Vllm.read_config host (Vllm.path_join dir "config.json")) "quantization_config" "quant_method").getD .nil)

/-- A file goes by its name, a snapshot by its revision. -/
def loose_name : Artefact → String
  | gguf path => Paths.rootname (Paths.basename path)
  | snapshot dir => (HFCache.repo_and_revision (Vllm.path_join dir "config.json")).2.getD "unknown"

def marks (host : Host) (a : Artefact) : Marks :=
  match HFCache.folder a.marker with
  | some folder => .cached folder (a.quant_of host)
  | none => .loose a.loose_name

end Artefact

/-! ## The parts of a path -/

theorem slash_not_mem_segment {p s : String} (h : s ∈ Paths.segments p) : '/' ∉ s.toList :=
  Text.not_mem_fields (List.mem_of_mem_filter h)

theorem slash_not_mem_folder {path folder : String} (h : HFCache.folder path = some folder) : '/' ∉ folder.toList := by
  obtain ⟨dir, hfind, rfl⟩ := Option.map_eq_some_iff.mp h
  have hstart := List.find?_some hfind
  have hseg : dir ∈ Paths.segments path := by
    obtain hroot | hseg := List.mem_append.mp (List.mem_of_find?_eq_some hfind)
    · -- the root is no `models--` directory
      have hdir : dir = "/" := by
        split at hroot
        · exact List.mem_singleton.mp hroot
        · cases hroot
      rw [hdir] at hstart
      exact absurd hstart (by decide)
    · exact hseg
  intro hm
  rw [String.toList_ofList] at hm
  exact slash_not_mem_segment hseg (List.mem_of_mem_drop hm)

theorem slash_not_mem_basename (p : String) : '/' ∉ (Paths.basename p).toList := by
  unfold Paths.basename
  cases h : (Paths.segments p).getLast? with
  | none => simp
  | some s => exact slash_not_mem_segment (List.mem_of_getLast? h)

theorem slash_not_mem_rootname {name : String} (h : '/' ∉ name.toList) : '/' ∉ (Paths.rootname name).toList := by
  unfold Paths.rootname
  split
  · exact h
  · next cs hcs =>
    intro hm
    rw [String.toList_ofList] at hm
    exact h ((List.rdropWhile_prefix _ _).mem (List.mem_of_mem_dropLast hm))

theorem slash_not_mem_revision {path sha : String} (h : (HFCache.repo_and_revision path).2 = some sha) : '/' ∉ sha.toList := by
  have hroot : ∀ l : List String, (l = ["/"] ∨ l = []) →
      (l ++ Paths.segments path).dropWhile (· ≠ "snapshots") = (Paths.segments path).dropWhile (· ≠ "snapshots") := by
    rintro l (rfl | rfl)
    · simp
    · rfl
  unfold HFCache.repo_and_revision Paths.split at h
  dsimp only at h
  rw [hroot _ (by split <;> simp)] at h
  split at h
  · next sha' rest hdrop =>
    cases h
    apply slash_not_mem_segment (p := path)
    apply (List.dropWhile_suffix _).subset
    rw [hdrop]
    simp
  · cases h

theorem Artefact.marks_named (host : Host) (a : Artefact) : (a.marks host).Named := by
  unfold Artefact.marks
  cases hf : HFCache.folder a.marker with
  | some folder => exact slash_not_mem_folder hf
  | none =>
    cases a with
    | gguf path => exact slash_not_mem_rootname (slash_not_mem_basename path)
    | snapshot dir =>
      show '/' ∉ ((HFCache.repo_and_revision (Vllm.path_join dir "config.json")).2.getD "unknown").toList
      cases hr : (HFCache.repo_and_revision (Vllm.path_join dir "config.json")).2 with
      | none => simp
      | some sha => exact slash_not_mem_revision hr

variable {host : Host} {refs : List ModelRef}

/-! ## The ids of a listing -/

theorem LlamaCpp.ref_id (host : Host) (path : String) :
    (LlamaCpp.ref_from_path host path).id = ((Artefact.gguf path).marks host).text := by
  unfold LlamaCpp.ref_from_path LlamaCpp.build_id Artefact.marks
  simp only [HFCache.repo_eq, Artefact.marker, Artefact.quant_of, Artefact.loose_name]
  cases HFCache.folder path with
  | none => rfl
  | some folder =>
    simp only [Option.map_some, Marks.text]
    cases LlamaCpp.quant_from_filename (Paths.basename path) with
    | none => simp [behind]
    | some q => simp [behind, String.append_assoc]

theorem Vllm.build_id_eq {repo id : String} {revision : Option String} {quant : Val}
    (h : Vllm.build_id host (some repo) revision quant = some id) : id = repo ++ behind (quant_label host quant) := by
  cases quant with
  | nil => cases h; simp [behind, quant_label]
  | _ =>
    simp only [Vllm.build_id, Option.bind_eq_bind, Option.bind_eq_some_iff, Option.some.injEq] at h
    obtain ⟨s, hs, rfl⟩ := h
    simp [quant_label, hs, behind, String.append_assoc]

theorem Vllm.ref_id {dir : String} {r : ModelRef} (h : Vllm.ref_from_dir host dir = some r) :
    r.id = ((Artefact.snapshot dir).marks host).text := by
  unfold Vllm.ref_from_dir at h
  simp only [Option.bind_eq_bind, Option.bind_eq_some_iff, Option.pure_def, Option.some.injEq] at h
  obtain ⟨quant, hq, id, hid, ctx, -, rfl⟩ := h
  rw [HFCache.repo_eq] at hid
  unfold Artefact.marks
  simp only [Artefact.marker, Artefact.quant_of, Artefact.loose_name, hq, Option.getD_some]
  cases hf : HFCache.folder (Vllm.path_join dir "config.json") with
  | none =>
    rw [hf] at hid
    cases hid
    rfl
  | some folder =>
    rw [hf] at hid
    exact Vllm.build_id_eq hid

theorem Artefact.ref_id : ∀ {a : Artefact} {r : ModelRef}, a.ref host = some r → r.id = (a.marks host).text
  | .gguf path, r, h => by
    cases h
    exact LlamaCpp.ref_id host path
  | .snapshot dir, r, h => Vllm.ref_id h

theorem inventory_all_ids (h : Engine.inventory_all host = .ok refs) :
    refs.map (·.id) = (Engine.listed host).map fun a => (a.marks host).text :=
  Listing.map_of_mapM (Engine.inventory_all_eq_ok.mp h) fun _ _ _ => Artefact.ref_id

/-! ## Keys -/

/-- No two entries have one id, and a load by an id gets the entry listed under it. -/
structure IdsAreKeys (refs : List ModelRef) : Prop where
  distinct : (refs.map (·.id)).Nodup
  get : ∀ r ∈ refs, Inventory.get refs r.id = some r

theorem ids_are_keys_of_nodup (h : (refs.map (·.id)).Nodup) : IdsAreKeys refs :=
  ⟨h, fun r hr => Listing.find?_key h r hr⟩

/-- **Inventory ids are keys** if and only if no two artefacts that a scan comes upon have
the same marks, or marks that run into one another. -/
theorem ids_are_keys_iff (hi : Engine.inventory_all host = .ok refs) :
    IdsAreKeys refs ↔ (Engine.listed host).Pairwise fun a b => ¬ Marks.Clash (a.marks host) (b.marks host) := by
  have hpairs : (refs.map (·.id)).Nodup ↔
      (Engine.listed host).Pairwise fun a b => ¬ Marks.Clash (a.marks host) (b.marks host) := by
    rw [inventory_all_ids hi, List.Nodup, List.pairwise_map]
    apply List.Pairwise.iff
    intro a b
    exact not_congr (Marks.text_eq_iff (a.marks_named host) (b.marks_named host))
  rw [← hpairs]
  exact ⟨fun h => h.distinct, ids_are_keys_of_nodup⟩

/-! ## Two caches -/

def cache_host (paths : List String) : Host where
  slots := [8081]
  host_id := "gpu-01"
  sha256 := fun _ => Vector.replicate 32 0
  float_to_string := fun _ _ => ""
  engines := [.llama_cpp, .vllm]
  model_roots := ["/h"]
  paths

def two_formats : Host := cache_host [
  "/h/models--o--r/snapshots/a/r-Q4_0.gguf",
  "/h/models--o--r/snapshots/a/config.json",
  "/h/models--o--r/snapshots/a/r.safetensors"]

theorem two_formats_marks : (Engine.listed two_formats).map (Artefact.marks two_formats) =
    [.cached "o--r" (some "Q4_0"), .cached "o--r" none] := by
  decide +kernel

theorem ids_are_keys_iff_two_formats : ∃ refs, Engine.inventory_all two_formats = .ok refs ∧ IdsAreKeys refs := by
  have hok : (Engine.inventory_all two_formats).isOk = true := by decide +kernel
  have hclash : ((Engine.listed two_formats).map (Artefact.marks two_formats)).Pairwise fun a b => ¬ Marks.Clash a b := by
    have hcolon : ':' ∉ "o--r".toList := by decide
    rw [two_formats_marks]
    simp [Marks.clash_iff_of_no_colon hcolon hcolon]
  cases hi : Engine.inventory_all two_formats with
  | error e => rw [hi] at hok; cases hok
  | ok refs =>
    exact ⟨refs, rfl, (ids_are_keys_iff hi).mpr (List.pairwise_map.mp hclash)⟩

def two_snapshots : Host := cache_host [
  "/h/models--o--r/snapshots/a/config.json",
  "/h/models--o--r/snapshots/a/r.safetensors",
  "/h/models--o--r/snapshots/b/config.json",
  "/h/models--o--r/snapshots/b/r.safetensors"]

/-- Both revisions of a repository go by its name, and a load by it gets the first. -/
theorem two_snapshots_share_id : ∃ refs, Engine.inventory_all two_snapshots = .ok refs ∧
    refs.map (fun r => (r.id, r.revision)) = [("o/r", some "a"), ("o/r", some "b")] ∧
    (Inventory.get refs "o/r").map (·.revision) = some (some "a") ∧ ¬ IdsAreKeys refs := by
  have hlist : (Engine.inventory_all two_snapshots).toOption.map (fun refs => refs.map fun r => (r.id, r.revision)) =
      some [("o/r", some "a"), ("o/r", some "b")] := by
    decide +kernel
  cases hi : Engine.inventory_all two_snapshots with
  | error e => rw [hi] at hlist; cases hlist
  | ok refs =>
    rw [hi] at hlist
    have hrefs := Option.some.inj hlist
    refine ⟨refs, rfl, hrefs, ?_, fun hkeys => ?_⟩
    · obtain ⟨r, rest, rfl, hr, -⟩ := List.map_eq_cons_iff.mp hrefs
      rw [Prod.mk.injEq] at hr
      simp [Inventory.get, hr]
    · have hids : refs.map (·.id) = ["o/r", "o/r"] := by
        have hfst := congrArg (List.map Prod.fst) hrefs
        rw [List.map_map] at hfst
        exact hfst
      have hd := hkeys.distinct
      rw [hids] at hd
      revert hd
      decide

end AiroAgent
