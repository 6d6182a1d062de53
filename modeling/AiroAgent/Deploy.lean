import AiroAgent.Lib.Run

/-!
# Deploying to a host and rolling it back

The release directories of one host and its `current` link, as `bin/deploy.sh`
and `bin/rollback.sh` move them. The directories stand in the order `ls -t`
gives them, the one deployed last in front.
-/

namespace AiroAgent.Deploy

/-- The name of a directory under `releases/`. -/
abbrev Release := String

/-- Where a path leads: `releases/a`, `releases/a/` and `releases/./a` to the release `a`,
`releases/.` and `releases/a/bin` to directories that are none. -/
inductive Place where
  | release (name : Release)
  | elsewhere (path : String)
  deriving DecidableEq, Repr

structure Site where
  releases : List Release := []
  current : Option Place := none
  deriving DecidableEq, Repr

/-! ## The two scripts -/

namespace Site

def others (site : Site) (release : Release) : List Release := site.releases.filter (· ≠ release)

/-- A name unpacked a second time is the newest directory from then on. -/
def extract (site : Site) (release : Release) : Site := { site with releases := release :: site.others release }

def flip (site : Site) (place : Place) : Site := { site with current := some place }

def is_current (site : Site) (release : Release) : Bool := site.current = some (.release release)

/-- All but the newest `keep`, and whatever `current` points at. -/
def prune (site : Site) (keep : Nat) : Site :=
  { site with releases := site.releases.take keep ++ (site.releases.drop keep).filter site.is_current }

/-- `healthy`: the restart and the health gate; the script ends there when one of them fails. -/
def deploy (site : Site) (keep : Nat) (release : Release) (healthy : Bool) : Site :=
  let flipped := (site.extract release).flip (.release release)
  if healthy then flipped.prune keep else flipped

/-- The first release directory that is not the current one. -/
def previous (site : Site) : Option Release := site.releases.find? (!site.is_current ·)

end Site

inductive Target where
  | previous
  | list
  | given (place : Option Place)
  deriving DecidableEq, Repr

namespace Site

/-- The test is for a directory, whichever it is; without a release the script ends before it. -/
def dest (site : Site) : Target → Option Place
  | .previous => site.previous.map .release
  | .list => none
  | .given (some (.release name)) => if site.releases.contains name then some (.release name) else none
  | .given (some (.elsewhere path)) => if site.releases.isEmpty then none else some (.elsewhere path)
  | .given none => none

def rollback (site : Site) (target : Target) : Site :=
  match site.dest target with
  | some place => site.flip place
  | none => site

end Site

inductive Command where
  | deploy (keep : Nat) (release : Release) (healthy : Bool)
  | rollback (target : Target)
  deriving DecidableEq, Repr

def step (site : Site) : Command → Option Site
  | .deploy keep release healthy => some (site.deploy keep release healthy)
  | .rollback target => some (site.rollback target)

/-! ## What one command leaves -/

variable {keep : Nat} {site site' : Site} {release r : Release} {place : Place} {healthy : Bool} {target : Target} {command : Command}

theorem Site.current_rollback : (site.rollback target).current = (site.dest target).or site.current := by
  unfold rollback
  cases site.dest target <;> rfl

theorem Site.releases_rollback : (site.rollback target).releases = site.releases := by
  unfold rollback
  cases site.dest target <;> rfl

def Target.leaves : Target → Bool
  | .given (some (.elsewhere _)) => true
  | _ => false

/-- Only a path that leads out of the releases is followed to anything but one of them. -/
theorem Site.mem_of_dest (hl : target.leaves = false) (h : site.dest target = some place) :
    ∃ r ∈ site.releases, place = .release r := by
  unfold dest at h
  split at h
  · obtain ⟨r, hr, rfl⟩ := Option.map_eq_some_iff.mp h
    exact ⟨r, List.mem_of_find?_eq_some hr, rfl⟩
  · cases h
  · rw [Option.ite_none_right_eq_some, List.contains_iff_mem] at h
    obtain ⟨hr, he⟩ := h
    cases he
    exact ⟨_, hr, rfl⟩
  · cases hl
  · cases h

/-! ## The link -/

def Site.Standing (site : Site) : Prop := ∃ r ∈ site.releases, site.current = some (.release r)

theorem Site.Standing.rollback (h : site.Standing) (hl : target.leaves = false) : (site.rollback target).Standing := by
  obtain ⟨r, hr, hc⟩ := h
  rw [Standing, releases_rollback, current_rollback, hc]
  cases hd : site.dest target with
  | none => exact ⟨r, hr, rfl⟩
  | some place =>
    obtain ⟨r', hr', rfl⟩ := mem_of_dest hl hd
    exact ⟨r', hr', rfl⟩

def Command.leaves : Command → Bool
  | .deploy .. => false
  | .rollback target => target.leaves

end AiroAgent.Deploy
