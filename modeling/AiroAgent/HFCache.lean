import AiroAgent.Types
import AiroAgent.Lib.Paths

/-!
# The Hugging Face cache

Where an artefact of the cache comes from, read off its path, and the wildcards
the adapters search the cache with. A directory is taken by its name: what a
wildcard would make of special characters in it is left out.
-/

namespace AiroAgent

namespace HFCache

def replace_dashes : List Char → List Char
  | '-' :: '-' :: cs => '/' :: replace_dashes cs
  | c :: cs => c :: replace_dashes cs
  | [] => []

/-- `models--ORG--REPO` to `ORG/REPO`. -/
def repo_of (dir : String) : String := String.ofList (replace_dashes (dir.toList.drop "models--".length))

def repo_and_revision (path : String) : Option String × Option String :=
  let parts := Paths.split path
  (match parts.find? (Text.starts_with · "models--") with
    | none => none
    | some dir => some (repo_of dir),
  match parts.dropWhile (· ≠ "snapshots") with
    | "snapshots" :: sha :: _ => some sha
    | _ => none)

/-! ## Dashes and slashes -/

variable {l : List Char} {c : Char}

theorem replace_dashes_cons (h : c = '-' → l.head? ≠ some '-') :
    replace_dashes (c :: l) = c :: replace_dashes l := by
  by_cases hc : c = '-'
  · subst hc
    cases l with
    | nil => rfl
    | cons d l =>
      have hd : d ≠ '-' := by simpa using h rfl
      rw [replace_dashes.eq_2]
      intro cs he hcs
      exact hd (List.cons.inj hcs).1
  · rw [replace_dashes.eq_2]
    intro cs he hcs
    exact hc he

/-- The case of the recursion in which a character is kept. -/
theorem head_of_kept (h : ∀ cs, c = '-' → l = '-' :: cs → False) (hc : c = '-') : l.head? ≠ some '-' := by
  intro hl
  obtain ⟨cs, rfl⟩ := List.head?_eq_some_iff.mp hl
  exact h cs hc rfl

theorem head_of_dash (h : ¬ ['-', '-'] <:+: c :: l) (hc : c = '-') : l.head? ≠ some '-' := by
  intro hd
  subst hc
  cases l with
  | nil => cases hd
  | cons d l =>
    rw [List.head?_cons, Option.some.injEq] at hd
    subst hd
    exact h ⟨[], l, rfl⟩

theorem replace_dashes_self (h : ¬ ['-', '-'] <:+: l) : replace_dashes l = l := by
  induction l with
  | nil => rfl
  | cons c l ih =>
    rw [replace_dashes_cons (head_of_dash h), ih fun hi => h (hi.trans (List.suffix_cons c l).isInfix)]

/-- A name without two dashes in a row is the only kind that gives no slash. -/
theorem no_pair_of_no_slash (h : '/' ∉ replace_dashes l) : ¬ ['-', '-'] <:+: l := by
  induction l using replace_dashes.induct with
  | case1 cs ih => simp [replace_dashes] at h
  | case2 c cs hc ih =>
    rw [replace_dashes_cons (head_of_kept hc), List.mem_cons, not_or] at h
    intro hi
    obtain hp | hi := List.infix_cons_iff.mp hi
    · obtain ⟨cs', he⟩ := hp
      cases he
      exact hc cs' rfl rfl
    · exact ih h.2 hi
  | case3 => simp

/-- Any other character is a break in the replacing. -/
theorem replace_dashes_append_cons (hc : c ≠ '-') (l r : List Char) :
    replace_dashes (l ++ c :: r) = replace_dashes l ++ c :: replace_dashes r := by
  induction l using replace_dashes.induct with
  | case1 cs ih => simp [replace_dashes, ih]
  | case2 d cs hd ih =>
    have hhead := head_of_kept hd
    have hhead' : d = '-' → (cs ++ c :: r).head? ≠ some '-' := by
      cases cs with
      | nil => exact fun _ => by simpa using hc
      | cons e cs => exact hhead
    rw [List.cons_append, replace_dashes_cons hhead', replace_dashes_cons hhead, ih, List.cons_append]
  | case3 => exact replace_dashes_cons fun he => absurd he hc

/-- Back from the slashes to the dashes. -/
def restore (l : List Char) : List Char := l.flatMap fun c => if c = '/' then ['-', '-'] else [c]

theorem restore_replace_dashes (h : '/' ∉ l) : restore (replace_dashes l) = l := by
  induction l using replace_dashes.induct with
  | case1 cs ih =>
    simp only [List.mem_cons, not_or] at h
    rw [replace_dashes, restore, List.flatMap_cons, if_pos rfl]
    exact congrArg ('-' :: '-' :: ·) (ih h.2.2)
  | case2 c cs hc ih =>
    simp only [List.mem_cons, not_or] at h
    rw [replace_dashes.eq_2 _ _ hc, restore, List.flatMap_cons, if_neg (Ne.symm h.1)]
    exact congrArg (c :: ·) (ih h.2)
  | case3 => rfl

end HFCache

namespace Host

def wildcard (host : Host) (dir ext : String) : List String := host.paths.filter (Paths.matches_in dir ext)

def wildcard_below (host : Host) (root ext : String) : List String := host.paths.filter (Paths.matches_below root ext)

/-- `<root>/**/snapshots/*/config.json`. -/
def snapshot_configs (host : Host) (root : String) : List String :=
  host.paths.filter (Paths.matches_three root "snapshots" "config.json")

end Host

end AiroAgent
