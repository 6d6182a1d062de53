import AiroAgent.HFCache

/-!
# Provenance

Files of the cache under any model root, and when the repository and the
snapshot are read off their paths.
-/

namespace AiroAgent.HFCache

/-! ## The layout -/

/-- A name the hub gives out to an organisation or a repository. -/
structure HubName (s : String) : Prop where
  nonempty : s ≠ ""
  no_slash : '/' ∉ s.toList
  no_dashes : ¬ ['-', '-'] <:+: s.toList
  front : s.toList.head? ≠ some '-' ∧ s.toList.head? ≠ some '.'
  back : s.toList.getLast? ≠ some '-' ∧ s.toList.getLast? ≠ some '.'

/-- `<root>/models--ORG--REPO/snapshots/<sha>/<rel>`. -/
structure Entry where
  root : String
  org : String
  repo : String
  sha : String
  rel : String
  absolute : root.toList.head? = some '/'
  org_name : HubName org
  repo_name : HubName repo
  sha_segment : '/' ∉ sha.toList ∧ sha ≠ ""

namespace Entry

def dir (e : Entry) : String := "models--" ++ e.org ++ "--" ++ e.repo

def path (e : Entry) : String := e.root ++ "/" ++ e.dir ++ "/" ++ "snapshots" ++ "/" ++ e.sha ++ "/" ++ e.rel

def Decoded (e : Entry) : Prop := repo_and_revision e.path = (some (e.org ++ "/" ++ e.repo), some e.sha)

end Entry

variable {e e' : Entry} {l r : List Char} {s : String}

/-! ## The name of a repository -/

theorem replace_dashes_append (h : ¬ ['-', '-'] <:+: l) (hl : l.getLast? ≠ some '-') :
    replace_dashes (l ++ '-' :: '-' :: r) = l ++ '/' :: replace_dashes r := by
  induction l with
  | nil => rfl
  | cons c l ih =>
    have hinfix : ¬ ['-', '-'] <:+: l := fun hi => h (hi.trans (List.suffix_cons c l).isInfix)
    have hhead : c = '-' → (l ++ '-' :: '-' :: r).head? ≠ some '-' := by
      intro hc
      cases l with
      | nil => simp [hc] at hl
      | cons d l =>
        have hd : (d :: l).head? ≠ some '-' := head_of_dash h hc
        exact hd
    have hlast : l.getLast? ≠ some '-' := by
      cases l with
      | nil => simp
      | cons d l => simpa [List.getLast?_cons_cons] using hl
    rw [List.cons_append, replace_dashes_cons hhead, ih hinfix hlast, List.cons_append]

theorem restore_self (h : '/' ∉ l) : restore l = l := by
  induction l with
  | nil => rfl
  | cons c l ih =>
    simp only [List.mem_cons, not_or] at h
    simp only [restore, List.flatMap_cons, if_neg (Ne.symm h.1)] at ih ⊢
    rw [ih h.2]
    rfl

namespace Entry

theorem slash_not_mem_dir : '/' ∉ e.dir.toList := by
  simp [dir, e.org_name.no_slash, e.repo_name.no_slash]

theorem dir_ne_empty : e.dir ≠ "" := by
  have hdash : '-' ∈ e.dir.toList := by simp [dir]
  exact Text.ne_empty_of_mem hdash

theorem repo_of_dir : repo_of e.dir = e.org ++ "/" ++ e.repo := by
  have hname : e.dir.toList.drop "models--".length = e.org.toList ++ '-' :: '-' :: e.repo.toList := by
    have htext : e.dir.toList = "models--".toList ++ (e.org.toList ++ '-' :: '-' :: e.repo.toList) := by simp [dir]
    rw [htext]
    rfl
  rw [repo_of, hname, replace_dashes_append e.org_name.no_dashes e.org_name.back.1,
    replace_dashes_self e.repo_name.no_dashes]
  apply String.toList_inj.mp
  simp

/-- No other directory of the cache is read as this repository. -/
theorem eq_dir_of_repo (hs : Text.starts_with s "models--" = true) (hslash : '/' ∉ s.toList)
    (h : repo_of s = e.org ++ "/" ++ e.repo) : s = e.dir := by
  rw [Text.starts_with, List.isPrefixOf_iff_prefix] at hs
  obtain ⟨rest, hrest⟩ := hs
  have hdrop : s.toList.drop "models--".length = rest := by
    rw [← hrest]
    rfl
  have hno : '/' ∉ rest := fun hm => hslash (hrest ▸ List.mem_append_right _ hm)
  have hread : replace_dashes rest = e.org.toList ++ '/' :: e.repo.toList := by
    have hlist := congrArg String.toList h
    simpa [repo_of, hdrop] using hlist
  have hname : rest = e.org.toList ++ '-' :: '-' :: e.repo.toList := by
    rw [← restore_replace_dashes hno, hread, restore, List.flatMap_append, List.flatMap_cons, if_pos rfl]
    change restore _ ++ (['-', '-'] ++ restore _) = _
    rw [restore_self e.org_name.no_slash, restore_self e.repo_name.no_slash]
    rfl
  apply String.toList_inj.mp
  rw [← hrest, hname]
  simp [dir]

/-! ## The parts of a path -/

theorem segments_path : Paths.segments e.path =
    Paths.segments e.root ++ e.dir :: "snapshots" :: e.sha :: Paths.segments e.rel := by
  have hsnapshots : Paths.segments "snapshots" = ["snapshots"] := rfl
  rw [path, Paths.segments_append, Paths.segments_append, Paths.segments_append, Paths.segments_append, hsnapshots,
    Paths.segments_name slash_not_mem_dir dir_ne_empty, Paths.segments_name e.sha_segment.1 e.sha_segment.2]
  simp

theorem split_path : Paths.split e.path =
    "/" :: (Paths.segments e.root ++ e.dir :: "snapshots" :: e.sha :: Paths.segments e.rel) := by
  have hhead : e.path.toList.head? = some '/' := by
    have habs := e.absolute
    cases hroot : e.root.toList with
    | nil => rw [hroot] at habs; cases habs
    | cons c cs =>
      rw [hroot] at habs
      simpa [path, hroot] using habs
  rw [Paths.split, if_pos hhead, segments_path]
  rfl

/-- The directory of the repository that is read: the first of the whole path that looks like one. -/
def first_models (root : String) : Option String := (Paths.segments root).find? (Text.starts_with · "models--")

/-- What follows the first `snapshots` of the root, when it has one. -/
def after_snapshots (e : Entry) : Option String :=
  match (Paths.segments e.root).dropWhile (· ≠ "snapshots") with
  | [] => none
  | _ :: rest => (rest ++ [e.dir]).head?

theorem starts_with_dir : Text.starts_with e.dir "models--" = true := by
  rw [Text.starts_with, List.isPrefixOf_iff_prefix, dir, String.append_assoc, String.append_assoc, String.toList_append]
  exact List.prefix_append _ _

theorem repo_of_path : (repo_and_revision e.path).1 = some (repo_of ((first_models e.root).getD e.dir)) := by
  have hfind : (Paths.split e.path).find? (Text.starts_with · "models--") = some ((first_models e.root).getD e.dir) := by
    have hroot : Text.starts_with "/" "models--" = false := by decide
    rw [split_path, List.find?_cons_of_neg (by simp [hroot]), List.find?_append, first_models]
    cases (Paths.segments e.root).find? (Text.starts_with · "models--") <;> simp [starts_with_dir]
  simp only [repo_and_revision, hfind]

theorem revision_of_path : (repo_and_revision e.path).2 = some (e.after_snapshots.getD e.sha) := by
  have hdir : e.dir ≠ "snapshots" := by
    intro h
    have hstart := starts_with_dir (e := e)
    rw [h] at hstart
    exact absurd hstart (by decide)
  have hparts : (Paths.split e.path).dropWhile (· ≠ "snapshots") =
      if (Paths.segments e.root).dropWhile (· ≠ "snapshots") = [] then "snapshots" :: e.sha :: Paths.segments e.rel
      else (Paths.segments e.root).dropWhile (· ≠ "snapshots") ++ e.dir :: "snapshots" :: e.sha :: Paths.segments e.rel := by
    rw [split_path, List.dropWhile_cons_of_pos (by decide), List.dropWhile_append]
    simp [hdir]
  unfold repo_and_revision after_snapshots
  simp only [hparts]
  cases hdrop : (Paths.segments e.root).dropWhile (· ≠ "snapshots") with
  | nil => simp
  | cons s rest =>
    have hs : s = "snapshots" := by
      have hhead := List.head?_dropWhile_not (· ≠ "snapshots") (Paths.segments e.root)
      rw [hdrop] at hhead
      simpa using hhead
    subst hs
    cases rest <;> simp

/-- Whatever of its root looks like a part of the cache agrees with the entry itself. -/
def Anchored (e : Entry) : Prop :=
  (∀ s, first_models e.root = some s → s = e.dir) ∧ ∀ s, e.after_snapshots = some s → s = e.sha

theorem decoded_iff : e.Decoded ↔ e.Anchored := by
  have hpair : repo_and_revision e.path =
      (some (repo_of ((first_models e.root).getD e.dir)), some (e.after_snapshots.getD e.sha)) :=
    Prod.ext repo_of_path revision_of_path
  rw [Decoded, hpair, Prod.mk.injEq, Option.some.injEq, Option.some.injEq]
  refine and_congr ?_ ?_
  · cases hm : first_models e.root with
    | none => simp [repo_of_dir]
    | some s =>
      have hstart : Text.starts_with s "models--" = true := List.find?_some (p := (Text.starts_with · "models--")) hm
      have hmem : s ∈ Paths.segments e.root := List.mem_of_find?_eq_some hm
      have hslash : '/' ∉ s.toList := Text.not_mem_fields (List.mem_of_mem_filter hmem)
      simp only [Option.getD_some, Option.some.injEq, forall_eq']
      refine ⟨eq_dir_of_repo hstart hslash, fun h => ?_⟩
      rw [h, repo_of_dir]
  · cases e.after_snapshots with
    | none => simp
    | some s => simp

end Entry

/-! ## Roots -/

/-- No part of the root looks like one of the cache's own. -/
def Clean (root : String) : Prop :=
  (∀ s ∈ Paths.segments root, Text.starts_with s "models--" = false) ∧ "snapshots" ∉ Paths.segments root

/-- Under these roots the repository and snapshot of a file come back, and those of two files are told apart. -/
structure Provenance (roots : List String) : Prop where
  decoded : ∀ e : Entry, e.root ∈ roots → e.Decoded
  told_apart : ∀ e e' : Entry, e.root ∈ roots → e'.root ∈ roots →
    repo_and_revision e.path = repo_and_revision e'.path → e.org = e'.org ∧ e.repo = e'.repo ∧ e.sha = e'.sha

theorem Clean.anchored (h : Clean e.root) : e.Anchored := by
  have hmodels : Entry.first_models e.root = none := by
    rw [Entry.first_models, List.find?_eq_none]
    intro s hs
    simp [h.1 s hs]
  have hsnapshots : (Paths.segments e.root).dropWhile (· ≠ "snapshots") = [] := by
    rw [List.dropWhile_eq_nil_iff]
    intro s hs
    exact decide_eq_true fun he => h.2 (he ▸ hs)
  have hafter : e.after_snapshots = none := by rw [Entry.after_snapshots, hsnapshots]
  simp [Entry.Anchored, hmodels, hafter]

theorem eq_of_pair (h : (some (e.org ++ "/" ++ e.repo), some e.sha) = (some (e'.org ++ "/" ++ e'.repo), some e'.sha)) :
    e.org = e'.org ∧ e.repo = e'.repo ∧ e.sha = e'.sha := by
  simp only [Prod.mk.injEq, Option.some.injEq] at h
  have hcut : Text.cut '/' (e.org ++ "/" ++ e.repo) = (e.org, e.repo) := Text.cut_append e.org_name.no_slash
  have hcut' : Text.cut '/' (e'.org ++ "/" ++ e'.repo) = (e'.org, e'.repo) := Text.cut_append e'.org_name.no_slash
  rw [h.1, hcut', Prod.mk.injEq] at hcut
  exact ⟨hcut.1.symm, hcut.2.symm, h.2⟩

def sample (root : String) (h : root.toList.head? = some '/') (repo sha : String) (hr : HubName repo)
    (hs : '/' ∉ sha.toList ∧ sha ≠ "") : Entry where
  root
  org := "a"
  repo
  sha
  rel := "m.gguf"
  absolute := h
  org_name := ⟨by decide, by decide, by decide, by decide, by decide⟩
  repo_name := hr
  sha_segment := hs

theorem hub_name_b : HubName "b" := ⟨by decide, by decide, by decide, by decide, by decide⟩

theorem clean_of_decoded {root : String} (habs : root.toList.head? = some '/')
    (h : ∀ e : Entry, e.root = root → e.Decoded) : Clean root := by
  have hname : HubName "c" := ⟨by decide, by decide, by decide, by decide, by decide⟩
  have hsha : '/' ∉ "b".toList ∧ "b" ≠ "" := by decide
  have hsha' : '/' ∉ "c".toList ∧ "c" ≠ "" := by decide
  have hb := Entry.decoded_iff.mp (h (sample root habs "b" "b" hub_name_b hsha) rfl)
  refine ⟨fun s hs => ?_, fun hs => ?_⟩
  · -- one part of the root cannot be the directory of two repositories
    by_contra hstart
    obtain ⟨s₀, hfirst⟩ : ∃ s₀, Entry.first_models root = some s₀ := by
      rw [← Option.isSome_iff_exists, Entry.first_models, List.find?_isSome]
      exact ⟨s, hs, by simpa using hstart⟩
    have hc := Entry.decoded_iff.mp (h (sample root habs "c" "b" hname hsha) rfl)
    have heq : "models--" ++ "a" ++ "--" ++ "b" = "models--" ++ "a" ++ "--" ++ "c" :=
      (hb.1 s₀ hfirst).symm.trans (hc.1 s₀ hfirst)
    exact absurd heq (by decide)
  · -- nor can what follows `snapshots` in it be two of them
    obtain ⟨s₀, hnext⟩ : ∃ s₀, (sample root habs "b" "b" hub_name_b hsha).after_snapshots = some s₀ := by
      unfold Entry.after_snapshots
      split
      · next hdrop =>
        have hnone := List.dropWhile_eq_nil_iff.mp hdrop "snapshots" hs
        simp at hnone
      · next rest _ => cases rest <;> simp
    have hc := Entry.decoded_iff.mp (h (sample root habs "b" "c" hub_name_b hsha') rfl)
    have heq : "b" = "c" := (hb.2 s₀ hnext).symm.trans (hc.2 s₀ hnext)
    exact absurd heq (by decide)

/-- **Provenance.** Paths under absolute roots decode to where their files are, and tell
them apart, exactly when no part of a root is `snapshots` or starts with `models--`. -/
theorem provenance_iff {roots : List String} (habs : ∀ root ∈ roots, root.toList.head? = some '/') :
    (∀ e : Entry, e.Decoded ↔ e.Anchored) ∧ (Provenance roots ↔ ∀ root ∈ roots, Clean root) := by
  refine ⟨fun e => Entry.decoded_iff, fun h root hroot => ?_, fun h => ?_⟩
  · exact clean_of_decoded (habs root hroot) fun e he => h.decoded e (he ▸ hroot)
  · have hdecoded : ∀ e : Entry, e.root ∈ roots → e.Decoded := fun e he =>
      Entry.decoded_iff.mpr (Clean.anchored (h e.root he))
    refine ⟨hdecoded, fun e e' he he' hpair => ?_⟩
    rw [hdecoded e he, hdecoded e' he'] at hpair
    exact eq_of_pair hpair

theorem provenance_iff_hub : Provenance ["/hub"] ↔ ∀ root ∈ ["/hub"], Clean root := (provenance_iff (by decide)).2

/-- Below `/mnt/snapshots/hub` every file is of the revision `hub`. -/
theorem snapshots_above_root : ∃ e e' : Entry, e.root = "/mnt/snapshots/hub" ∧ e'.root = e.root ∧ e.sha ≠ e'.sha ∧
    repo_and_revision e.path = (some "a/b", some "hub") ∧ repo_and_revision e'.path = (some "a/b", some "hub") :=
  ⟨sample "/mnt/snapshots/hub" (by decide) "b" "b" hub_name_b (by decide),
    sample "/mnt/snapshots/hub" (by decide) "b" "c" hub_name_b (by decide), rfl, rfl, by decide, by decide, by decide⟩

end AiroAgent.HFCache
