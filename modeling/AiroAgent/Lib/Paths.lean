import AiroAgent.Lib.Text

/-!
# File paths

Slash-separated paths as strings, taken apart the way `Path` of the Elixir
library takes them apart.
-/

namespace Paths

def segments (p : String) : List String := (Text.fields '/' p).filter (· ≠ "")

/-- An absolute path has `/` for its first part. -/
def split (p : String) : List String := (if p.toList.head? = some '/' then ["/"] else []) ++ segments p

def basename (p : String) : String := (segments p).getLast?.getD ""

/-- The directory of what stands before a name, slashes at its end left out. -/
def directory (front : List Char) : String :=
  if front.rdropWhile (· = '/') = [] then "/" else String.ofList (front.rdropWhile (· = '/'))

def dirname (p : String) : String :=
  if p.toList.rdropWhile (· ≠ '/') = [] then "." else directory (p.toList.rdropWhile (· ≠ '/'))

/-- The part before the last dot, or all of a name without one. -/
def rootname (name : String) : String :=
  match name.toList.rdropWhile (· ≠ '.') with
  | [] => name
  | cs => String.ofList cs.dropLast

/-- A name that starts with a dot matches no `*`. -/
def visible (name : String) : Bool := name.toList.head? ≠ some '.'

/-! ## Patterns -/

/-- `<dir>/*<ext>`. -/
def matches_in (dir ext p : String) : Bool := dirname p = dir && visible (basename p) && Text.ends_with (basename p) ext

/-- The parts of `p` below `root`, when all of them are visible. -/
def below (root p : String) : Option (List String) :=
  if split root <+: split p ∧ ((split p).drop (split root).length).all visible then
    some ((split p).drop (split root).length)
  else none

/-- `<root>/**/*<ext>`. -/
def matches_below (root ext p : String) : Bool :=
  match below root p with
  | some (_ :: _) => Text.ends_with (basename p) ext
  | _ => false

/-- `<root>/**/<dir>/*/<name>`. -/
def matches_three (root dir name p : String) : Bool :=
  match (below root p).map List.reverse with
  | some (_ :: _ :: parent :: _) => basename p = name && parent = dir
  | _ => false

theorem matches_in_iff {dir ext p : String} : matches_in dir ext p = true ↔
    dirname p = dir ∧ visible (basename p) = true ∧ Text.ends_with (basename p) ext = true := by
  simp [matches_in, and_assoc]

theorem ends_with_of_matches_below {root ext p : String} (h : matches_below root ext p = true) :
    Text.ends_with (basename p) ext = true := by
  unfold matches_below at h
  split at h
  · exact h
  · cases h

theorem basename_of_matches_three {root dir name p : String} (h : matches_three root dir name p = true) :
    basename p = name := by
  unfold matches_three at h
  split at h
  · rw [Bool.and_eq_true, decide_eq_true_eq] at h
    exact h.1
  · cases h

/-! ## A name in a directory -/

theorem segments_append (d name : String) : segments (d ++ "/" ++ name) = segments d ++ segments name := by
  have htext : (d ++ "/" ++ name).toList = d.toList ++ '/' :: name.toList := by simp
  rw [segments, Text.fields, htext, List.splitOn_append_cons_self]
  simp [segments, Text.fields]

theorem segments_name {name : String} (h : '/' ∉ name.toList) (hn : name ≠ "") : segments name = [name] := by
  rw [segments, Text.fields, List.splitOn_eq_singleton h]
  simp [hn]

theorem basename_append {d name : String} (h : '/' ∉ name.toList) (hn : name ≠ "") : basename (d ++ "/" ++ name) = name := by
  rw [basename, segments_append, segments_name h hn]
  simp

theorem split_append {d name : String} (h : '/' ∉ name.toList) (hn : name ≠ "") :
    split (d ++ "/" ++ name) = split (d ++ "/") ++ [name] := by
  have hdir : segments (d ++ "/") = segments d := by
    have happend := segments_append d ""
    rwa [String.append_empty, show segments "" = [] from rfl, List.append_nil] at happend
  have hhead : (d ++ "/" ++ name).toList.head? = (d ++ "/").toList.head? := by
    cases hd : d.toList <;> simp [hd]
  rw [split, split, hhead, segments_append, segments_name h hn, hdir, List.append_assoc]

/-- Below a root a name is found where its directory is, if the pattern takes the name itself. -/
theorem matches_below_append {root ext d name : String} (h : '/' ∉ name.toList) (hn : name ≠ "") :
    matches_below root ext (d ++ "/" ++ name) = true ↔
      below root (d ++ "/") ≠ none ∧ visible name = true ∧ Text.ends_with name ext = true := by
  unfold matches_below below
  rw [split_append h hn, basename_append h hn]
  by_cases hroot : split root <+: split (d ++ "/")
  · have hdrop : (split (d ++ "/") ++ [name]).drop (split root).length =
        (split (d ++ "/")).drop (split root).length ++ [name] := List.drop_append_of_le_length hroot.length_le
    have hwith : split root <+: split (d ++ "/") ++ [name] := hroot.trans (List.prefix_append _ _)
    rw [hdrop]
    simp only [hwith, hroot, true_and, List.all_append, List.all_cons, List.all_nil, Bool.and_true, Bool.and_eq_true]
    by_cases hall : ((split (d ++ "/")).drop (split root).length).all visible = true
    · by_cases hv : visible name = true
      · rw [if_pos ⟨hall, hv⟩, if_pos hall]
        cases (split (d ++ "/")).drop (split root).length <;> simp [hv]
      · simp [hv]
    · simp [hall]
  · have hwhole : ¬ split root <+: split (d ++ "/") ++ [name] ∨ split root = split (d ++ "/") ++ [name] := by
      rw [List.prefix_concat_iff]
      by_cases he : split root = split (d ++ "/") ++ [name]
      · exact .inr he
      · exact .inl (by simp [he, hroot])
    obtain hno | he := hwhole
    · simp [hno, hroot]
    · rw [he]
      simp [← he, hroot]

/-- A directory, as `dirname` gives it: no slash at its end, but for the root. -/
def Trimmed (d : String) : Prop := d = "/" ∨ (d ≠ "" ∧ d.toList.getLast? ≠ some '/')

theorem directory_trimmed (front : List Char) : Trimmed (directory front) := by
  unfold directory
  by_cases h : front.rdropWhile (· = '/') = []
  · rw [if_pos h]
    exact .inl rfl
  · rw [if_neg h]
    refine .inr ⟨?_, ?_⟩
    · intro he
      apply h
      have := congrArg String.toList he
      simpa using this
    · have hlast := List.rdropWhile_last_not (· = '/') front h
      rw [String.toList_ofList, List.getLast?_eq_some_getLast h]
      simpa using hlast

theorem dirname_trimmed (p : String) : Trimmed (dirname p) := by
  unfold dirname
  split
  · exact .inr (by decide)
  · exact directory_trimmed _

theorem rdropWhile_append_of_pos {α : Type} {p : α → Bool} {l : List α} : ∀ {r : List α}, (∀ x ∈ r, p x = true) →
    (l ++ r).rdropWhile p = l.rdropWhile p := by
  intro r h
  simp only [List.rdropWhile, List.reverse_append]
  rw [List.dropWhile_append_of_pos (fun x hx => h x (List.mem_reverse.mp hx))]

theorem dirname_append {d name : String} (h : '/' ∉ name.toList) (hd : d.toList.getLast? ≠ some '/') :
    dirname (d ++ "/" ++ name) = if d = "" then "/" else d := by
  have hfront : (d ++ "/" ++ name).toList.rdropWhile (· ≠ '/') = d.toList ++ ['/'] := by
    have htext : (d ++ "/" ++ name).toList = (d.toList ++ ['/']) ++ name.toList := by simp
    have hname : ∀ c ∈ name.toList, decide (c ≠ '/') = true := fun c hc => decide_eq_true fun e => h (e ▸ hc)
    rw [htext, rdropWhile_append_of_pos hname, List.rdropWhile_concat_neg _ _ _ (by simp)]
  have hself : d.toList.rdropWhile (· = '/') = d.toList := by
    rw [List.rdropWhile_eq_self_iff]
    intro hl he
    apply hd
    rw [List.getLast?_eq_some_getLast hl]
    simpa using he
  unfold dirname directory
  rw [hfront, if_neg (by simp), List.rdropWhile_concat_pos _ _ _ (by simp), hself]
  by_cases hempty : d = ""
  · simp [hempty]
  · simp [hempty]

end Paths
