import AiroAgent.Lib.Double
import AiroAgent.Lib.Lines

/-!
# The spin window

The overlay that sets how long a reader spins before it sleeps, by replacing one
line of a source file at every start of the container. The file stays between
the starts, so a start finds what an earlier one left.
-/

namespace AiroAgent.Spinwait

abbrev Str := List Char

inductive SpinError where
  | unknown_arguments (args : List Str)
  | missing
  | not_a_number (raw : Str)
  | too_long (raw : Str)
  | out_of_range (raw : Str)
  | stock_anchor (count : Nat)
  | ambiguous (stock configured : Nat)
  | not_python
  deriving DecidableEq

inductive Action where
  | stock
  | stock_equivalent
  | patched
  | already_present
  deriving DecidableEq

def stock_line : Str := "        busy_loop_s: float = 1,\n".toList

/-- No milliseconds are the stock behaviour; `int` reads 4300 digits at most. -/
def parse_spinwait_ms : Option Str → Except SpinError (Option Nat)
  | none => .ok none
  | some raw =>
    if raw = "stock".toList then .ok none
    else if raw = [] ∨ raw.all Char.isDigit = false then .error (.not_a_number raw)
    else if 4300 < raw.length then .error (.too_long raw)
    else
      let value := Nat.ofDigitChars 10 raw 0
      if 1 ≤ value ∧ value ≤ 1000 then .ok (some value) else .error (.out_of_range raw)

def seconds_literal (milliseconds : Nat) : Str :=
  if milliseconds = 1000 then ['1']
  else ("0.".toList ++ (Text.pad 3 milliseconds).toList).rdropWhile (· == '0')

def configured_line (milliseconds : Nat) : Str :=
  "        busy_loop_s: float = ".toList ++ seconds_literal milliseconds ++ ",\n".toList

def prepare (source : Str) : Option Nat → Except SpinError (Str × Action)
  | none =>
    let stock_count := Lines.count stock_line source
    if stock_count ≠ 1 then .error (.stock_anchor stock_count) else .ok (source, .stock)
  | some milliseconds =>
    let stock_count := Lines.count stock_line source
    let replacement := configured_line milliseconds
    if replacement = stock_line then
      if stock_count ≠ 1 then .error (.stock_anchor stock_count) else .ok (source, .stock_equivalent)
    else
      let replacement_count := Lines.count replacement source
      if stock_count = 1 ∧ replacement_count = 0 then .ok (Lines.replace_once stock_line replacement source, .patched)
      else if stock_count = 0 ∧ replacement_count = 1 then .ok (source, .already_present)
      else .error (.ambiguous stock_count replacement_count)

def preflight_only : Str := "--preflight".toList

/-- What the file is to be; `compiles` is Python's own check. -/
def preflight (compiles : Str → Bool) (env : Option Str) (source : Str) : Except SpinError (Option Nat × Str × Action) := do
  let milliseconds ← parse_spinwait_ms env
  let (patched, action) ← prepare source milliseconds
  if compiles patched then return (milliseconds, patched, action) else .error .not_python

/-- One start: its arguments, the setting in its environment, and the file. The result is the report
and the file as it is then. -/
def main (compiles : Str → Bool) (args : List Str) (env : Option Str) (target : Option Str) :
    Except SpinError (Option Nat × Action) × Option Str :=
  let unknown := args.filter fun arg => arg ≠ preflight_only
  if unknown ≠ [] then (.error (.unknown_arguments unknown), target)
  else
    match target with
    | none => (.error .missing, none)
    | some source =>
      match preflight compiles env source with
      | .error e => (.error e, some source)
      | .ok (milliseconds, patched, action) =>
        (.ok (milliseconds, action), if args.contains preflight_only then some source else some patched)

def boots (compiles : Str → Bool) (starts : List (List Str × Option Str)) (target : Option Str) : Option Str :=
  starts.foldl (fun target start => (main compiles start.1 start.2 target).2) target

/-! ## The literal -/

section
variable {ms : Nat} {ds : Str}

/-- A fraction without the zeros at its end is the same fraction. -/
theorem strip_zeros : ∃ k, ds.length = (ds.rdropWhile (· == '0')).length + k ∧
    Nat.ofDigitChars 10 ds 0 = Nat.ofDigitChars 10 (ds.rdropWhile (· == '0')) 0 * 10 ^ k := by
  induction ds using List.reverseRecOn with
  | nil => exact ⟨0, rfl, rfl⟩
  | append_singleton ds d ih =>
    by_cases hd : d = '0'
    · subst hd
      obtain ⟨k, hlen, hval⟩ := ih
      rw [List.rdropWhile_concat_pos _ _ _ (by simp)]
      refine ⟨k + 1, by simp [hlen, Nat.add_assoc], ?_⟩
      rw [Nat.ofDigitChars_append, hval, pow_succ]
      simp [Nat.ofDigitChars_cons, Nat.mul_comm, Nat.mul_assoc]
    · rw [List.rdropWhile_concat_neg _ _ _ (by simpa using hd)]
      exact ⟨0, rfl, by simp⟩

theorem length_pad (h : ms < 1000) : (Text.pad 3 ms).toList.length = 3 := by
  have hlen : (Nat.toDigits 10 ms).length ≤ 3 := (Nat.length_toDigits_le_iff (by omega) (by omega)).mpr h
  rw [Text.pad, String.toList_ofList, List.leftpad, List.length_append, List.length_replicate]
  omega

theorem rdropWhile_append {a b : Str} {p : Char → Bool} (h : b.rdropWhile p ≠ []) : (a ++ b).rdropWhile p = a ++ b.rdropWhile p := by
  have hne : b.reverse.dropWhile p ≠ [] := by simpa [List.rdropWhile] using h
  rw [List.rdropWhile, List.reverse_append, List.dropWhile_append, if_neg (by simpa using hne), List.reverse_append, List.reverse_reverse]
  rfl

theorem literal_fraction (h0 : 0 < ms) (h : ms < 1000) : ∃ fs k, seconds_literal ms = '0' :: '.' :: fs ∧ fs ≠ [] ∧
    (∀ c ∈ fs, c.isDigit = true) ∧ 3 = fs.length + k ∧ ms = Nat.ofDigitChars 10 fs 0 * 10 ^ k := by
  have hne : ms ≠ 1000 := by omega
  obtain ⟨k, hlen, hval⟩ := @strip_zeros (Text.pad 3 ms).toList
  rw [length_pad h] at hlen
  rw [Text.ofDigitChars_pad] at hval
  have hfs : (Text.pad 3 ms).toList.rdropWhile (· == '0') ≠ [] := by
    intro hnil
    rw [hnil] at hval
    simp at hval
    omega
  refine ⟨_, k, ?_, hfs, ?_, hlen, hval⟩
  · have hpoint : "0.".toList = ['0', '.'] := by decide
    rw [seconds_literal, if_neg hne, rdropWhile_append hfs, hpoint]
    simp only [List.cons_append, List.nil_append]
  · intro c hc
    exact Text.digit_of_mem_pad ((List.rdropWhile_prefix (· == '0') _).subset hc)

/-- The literal is the decimal fraction of a second. -/
theorem seconds_literal_spec (h0 : 0 < ms) (h : ms < 1000) :
    ∃ d : Double.Numeral, d.unsigned_text = seconds_literal ms ∧ d.magnitude = ms / 1000 := by
  obtain ⟨fs, k, hlit, hfs, hdigits, hlen, hval⟩ := literal_fraction h0 h
  have hall : ∀ c ∈ ['0'] ++ fs, c.isDigit = true := by
    intro c hc
    rcases List.mem_append.mp hc with hc | hc
    · rw [List.mem_singleton.mp hc]
      rfl
    · exact hdigits c hc
  refine ⟨⟨false, ['0'], fs, by simp, hall⟩, ?_, ?_⟩
  · rw [Double.Numeral.unsigned_text, hlit, if_neg hfs]
    rfl
  · have hzero : Nat.ofDigitChars 10 (['0'] ++ fs) 0 = Nat.ofDigitChars 10 fs 0 := by
      rw [List.singleton_append, Nat.ofDigitChars_cons]
      rfl
    have hpow : (10 : ℚ) ^ fs.length * 10 ^ k = 1000 := by
      rw [← pow_add, ← hlen]
      norm_num
    have hms : (ms : ℚ) = Nat.ofDigitChars 10 fs 0 * 10 ^ k := by exact_mod_cast hval
    have hpos : (10 : ℚ) ^ fs.length ≠ 0 := pow_ne_zero _ (by norm_num)
    rw [Double.Numeral.magnitude, hzero, ← hpow, hms, zpow_neg, zpow_natCast]
    dsimp only
    field_simp

theorem space_not_mem_literal (h0 : 0 < ms) (h : ms ≤ 1000) : ' ' ∉ seconds_literal ms ∧ '\n' ∉ seconds_literal ms := by
  rcases Nat.lt_or_eq_of_le h with hlt | rfl
  · obtain ⟨fs, k, hlit, _, hdigits, _⟩ := literal_fraction h0 hlt
    rw [hlit]
    have hspace : ' ' ∉ fs := fun hin => absurd (hdigits _ hin) (by decide)
    have hbreak : '\n' ∉ fs := fun hin => absurd (hdigits _ hin) (by decide)
    simp [hspace, hbreak]
  · decide

/-! ## The line -/

def window (literal : Str) : Str := "        busy_loop_s: float =".toList ++ ' ' :: (literal ++ [','])

theorem configured_line_eq : configured_line ms = window (seconds_literal ms) ++ ['\n'] := by
  have hhead : "        busy_loop_s: float = ".toList = "        busy_loop_s: float =".toList ++ [' '] := by decide
  have htail : ",\n".toList = [',', '\n'] := by decide
  unfold configured_line window
  rw [hhead, htail]
  simp

theorem stock_line_eq : stock_line = window ['1'] ++ ['\n'] := by decide

theorem break_not_mem_window {literal : Str} (h : '\n' ∉ literal) : '\n' ∉ window literal := by
  unfold window
  simp [h]

theorem last_word {x u : Str} (h : ' ' ∉ u) : (x ++ ' ' :: u).reverse.takeWhile (· != ' ') = u.reverse := by
  have hsplit : (x ++ ' ' :: u).reverse = u.reverse ++ ' ' :: x.reverse := by simp
  have hu : ∀ c ∈ u.reverse, (c != ' ') = true := by
    intro c hc
    rw [List.mem_reverse] at hc
    simp only [bne_iff_ne, ne_eq]
    rintro rfl
    exact h hc
  rw [hsplit, List.takeWhile_append_of_pos hu]
  simp

/-- Behind the last blank of a line stands its literal. -/
theorem literal_of_suffix {l literal literal' : Str} (h : ' ' ∉ literal) (h' : ' ' ∉ literal')
    (hs : window literal' <:+ l ++ window literal) : literal' = literal := by
  obtain ⟨t, ht⟩ := hs
  unfold window at ht
  rw [← List.append_assoc, ← List.append_assoc] at ht
  have hcomma : ' ' ∉ literal ++ [','] := by simp [h]
  have hcomma' : ' ' ∉ literal' ++ [','] := by simp [h']
  have hwords := last_word (x := t ++ "        busy_loop_s: float =".toList) hcomma'
  rw [ht, last_word hcomma, List.reverse_inj] at hwords
  exact (List.append_cancel_right hwords).symm

/-! ## Starts -/

variable {compiles : Str → Bool} {args : List Str} {env target target' : Option Str} {source patched : Str} {action : Action}
  {ls ls' : List Str} {l rest literal : Str}

theorem count_window (hl : '\n' ∉ literal) (hls : ∀ l ∈ ls, '\n' ∉ l) (hrest : '\n' ∉ rest) :
    Lines.count (window literal ++ ['\n']) (Lines.unlines '\n' ls rest) = ls.countP (window literal <:+ ·) :=
  Lines.count_unlines (break_not_mem_window hl) hls hrest

/-- Of a single line that is counted, what is before it and behind it. -/
theorem split_of_count {p : Str} (h : ls.countP (p <:+ ·) = 1) : ∃ before l after, ls = before ++ (l ++ p) :: after ∧
    (∀ l ∈ before, ¬ p <:+ l) ∧ ∀ l ∈ after, ¬ p <:+ l := by
  induction ls with
  | nil => cases h
  | cons l ls ih =>
    by_cases hp : p <:+ l
    · rw [List.countP_cons_of_pos (by simpa using hp)] at h
      obtain ⟨l, rfl⟩ := hp
      refine ⟨[], l, ls, rfl, by simp, ?_⟩
      simpa [List.countP_eq_zero] using h
    · rw [List.countP_cons_of_neg (by simpa using hp)] at h
      obtain ⟨before, l', after, rfl, hbefore, hafter⟩ := ih h
      refine ⟨l :: before, l', after, rfl, ?_, hafter⟩
      rw [List.forall_mem_cons]
      exact ⟨hp, hbefore⟩

theorem configured_ne_stock (h0 : 0 < ms) (h : ms < 1000) : configured_line ms ≠ stock_line := by
  obtain ⟨fs, k, hlit, _⟩ := literal_fraction h0 h
  rw [configured_line_eq, stock_line_eq, hlit]
  intro he
  have hw := List.append_cancel_right he
  unfold window at hw
  have hcons := List.append_cancel_left hw
  simp at hcons

/-- The line in the file, and the file it was: it had the line already, or the stock line there. -/
def Configured (ms : Nat) (source patched : Str) : Prop :=
  ∃ before l after rest, patched = Lines.unlines '\n' (before ++ (l ++ window (seconds_literal ms)) :: after) rest ∧
    (source = patched ∨ source = Lines.unlines '\n' (before ++ (l ++ window ['1']) :: after) rest)

theorem configured_of_prepare (h0 : 0 < ms) (h : ms < 1000) (hp : prepare source (some ms) = .ok (patched, action)) :
    Configured ms source patched ∧ Lines.count stock_line patched = 0 ∧ Lines.count (configured_line ms) patched = 1 := by
  obtain ⟨hspace, hbreak⟩ := space_not_mem_literal h0 h.le
  obtain ⟨ls, rest, rfl, hls, hrest⟩ := Lines.exists_unlines '\n' source
  have hone : '\n' ∉ ['1'] := by decide
  have hcount : ∀ ls, (∀ l ∈ ls, '\n' ∉ l) → Lines.count stock_line (Lines.unlines '\n' ls rest) = ls.countP (window ['1'] <:+ ·) ∧
      Lines.count (configured_line ms) (Lines.unlines '\n' ls rest) = ls.countP (window (seconds_literal ms) <:+ ·) := by
    intro ls hls
    rw [stock_line_eq, configured_line_eq]
    exact ⟨count_window hone hls hrest, count_window hbreak hls hrest⟩
  obtain ⟨hstock, hconf⟩ := hcount ls hls
  simp only [prepare, if_neg (configured_ne_stock h0 h)] at hp
  by_cases hfresh : Lines.count stock_line (Lines.unlines '\n' ls rest) = 1 ∧ Lines.count (configured_line ms) (Lines.unlines '\n' ls rest) = 0
  · rw [if_pos hfresh] at hp
    cases hp
    rw [hstock, hconf] at hfresh
    obtain ⟨before, l, after, rfl, hbefore, hafter⟩ := split_of_count hfresh.1
    have hwindow := break_not_mem_window hbreak
    simp only [List.forall_mem_append, List.forall_mem_cons] at hls
    obtain ⟨hbefore', hl, hafter'⟩ := hls
    have hl' : '\n' ∉ l := fun hin => hl (List.mem_append_left _ hin)
    have hnew : ∀ l' ∈ before ++ (l ++ window (seconds_literal ms)) :: after, '\n' ∉ l' := by
      simp only [List.forall_mem_append, List.forall_mem_cons]
      exact ⟨hbefore', by simp [hl', hwindow], hafter'⟩
    have hpatched : Lines.replace_once stock_line (configured_line ms) (Lines.unlines '\n' (before ++ (l ++ window ['1']) :: after) rest) =
        Lines.unlines '\n' (before ++ (l ++ window (seconds_literal ms)) :: after) rest := by
      rw [stock_line_eq, configured_line_eq]
      exact Lines.replace_unlines (break_not_mem_window hone) (fun l hl => ⟨hbefore' l hl, hbefore l hl⟩) hl'
    have hdiffer : ¬ window ['1'] <:+ l ++ window (seconds_literal ms) := by
      intro hs
      have hlit := literal_of_suffix hspace (by decide) hs
      apply configured_ne_stock h0 h
      rw [configured_line_eq, stock_line_eq, hlit]
    obtain ⟨hstock', hconf'⟩ := hcount _ hnew
    have hnone := List.countP_eq_zero.mp hfresh.2
    simp only [List.forall_mem_append, List.forall_mem_cons, decide_eq_true_eq] at hnone
    refine ⟨⟨before, l, after, rest, hpatched, .inr rfl⟩, ?_, ?_⟩
    · rw [hpatched, hstock', List.countP_eq_zero]
      simp only [List.forall_mem_append, List.forall_mem_cons, decide_eq_true_eq]
      exact ⟨hbefore, hdiffer, hafter⟩
    · have hb : before.countP (window (seconds_literal ms) <:+ ·) = 0 := List.countP_eq_zero.mpr (by simpa using hnone.1)
      have ha : after.countP (window (seconds_literal ms) <:+ ·) = 0 := List.countP_eq_zero.mpr (by simpa using hnone.2.2)
      rw [hpatched, hconf', List.countP_append, List.countP_cons, hb, ha]
      simp
  · rw [if_neg hfresh] at hp
    by_cases hpresent : Lines.count stock_line (Lines.unlines '\n' ls rest) = 0 ∧ Lines.count (configured_line ms) (Lines.unlines '\n' ls rest) = 1
    · rw [if_pos hpresent] at hp
      cases hp
      have hline := hpresent.2
      rw [hconf] at hline
      obtain ⟨before, l, after, rfl, _, _⟩ := split_of_count hline
      exact ⟨⟨before, l, after, rest, rfl, .inl rfl⟩, hpresent⟩
    · rw [if_neg hpresent] at hp
      cases hp

theorem parse_le (h : parse_spinwait_ms env = .ok (some ms)) : 0 < ms ∧ ms ≤ 1000 := by
  unfold parse_spinwait_ms at h
  cases env with
  | none => cases h
  | some raw =>
    simp only at h
    split at h
    · cases h
    · split at h
      · cases h
      · split at h
        · cases h
        · split at h
          · rename_i hrange
            cases h
            exact hrange
          · cases h

theorem preflight_of_no_stock (hs : Lines.count stock_line source = 0) (hc : compiles source = true) :
    (∃ ms, parse_spinwait_ms env = .ok (some ms) ∧ Lines.count (configured_line ms) source = 1 ∧
        preflight compiles env source = .ok (some ms, source, .already_present)) ∨
      (∃ e, preflight compiles env source = .error e) ∧
        ¬ ∃ ms, parse_spinwait_ms env = .ok (some ms) ∧ Lines.count (configured_line ms) source = 1 := by
  cases hp : parse_spinwait_ms env with
  | error e => exact .inr ⟨⟨e, by simp [preflight, hp, bind, Except.bind]⟩, by simp⟩
  | ok setting =>
    cases setting with
    | none => exact .inr ⟨⟨.stock_anchor 0, by simp [preflight, prepare, hp, hs, bind, Except.bind]⟩, by simp⟩
    | some ms =>
      by_cases heq : configured_line ms = stock_line
      · exact .inr ⟨⟨.stock_anchor 0, by simp [preflight, prepare, hp, hs, heq, bind, Except.bind]⟩, by simp [heq, hs]⟩
      · by_cases hone : Lines.count (configured_line ms) source = 1
        · exact .inl ⟨ms, rfl, hone, by simp [preflight, prepare, hp, hs, heq, hone, hc, bind, Except.bind, pure, Except.pure]⟩
        · refine .inr ⟨⟨.ambiguous 0 (Lines.count (configured_line ms) source), ?_⟩, by simpa using hone⟩
          simp [preflight, prepare, hp, hs, heq, hone, bind, Except.bind]

/-- Without a stock line nothing is written any more; only a setting whose line is there is accepted. -/
theorem main_of_no_stock (hs : Lines.count stock_line source = 0) (hc : compiles source = true) :
    (main compiles args env (some source)).2 = some source ∧
      ((main compiles args env (some source)).1.isOk = true ↔ (∀ arg ∈ args, arg = preflight_only) ∧
        ∃ ms, parse_spinwait_ms env = .ok (some ms) ∧ Lines.count (configured_line ms) source = 1) := by
  by_cases hargs : args.filter (fun arg => arg ≠ preflight_only) = []
  · have hall : ∀ arg ∈ args, arg = preflight_only := by
      simpa [List.filter_eq_nil_iff] using hargs
    rcases @preflight_of_no_stock compiles env source hs hc with ⟨ms, hp, hone, hpre⟩ | ⟨⟨e, hpre⟩, hnot⟩
    · have hmain : main compiles args env (some source) = (.ok (some ms, .already_present), some source) := by
        unfold main
        rw [if_neg (not_not.mpr hargs)]
        simp [hpre]
      rw [hmain]
      exact ⟨rfl, ⟨fun _ => ⟨hall, ms, hp, hone⟩, fun _ => rfl⟩⟩
    · have hmain : main compiles args env (some source) = (.error e, some source) := by
        unfold main
        rw [if_neg (not_not.mpr hargs)]
        simp [hpre]
      rw [hmain]
      exact ⟨rfl, ⟨fun h => (by cases h), fun h => absurd h.2 hnot⟩⟩
  · have hnall : ¬ ∀ arg ∈ args, arg = preflight_only := by
      simpa [List.filter_eq_nil_iff] using hargs
    unfold main
    rw [if_pos hargs]
    exact ⟨rfl, ⟨fun h => (by cases h), fun h => absurd h.1 hnall⟩⟩

theorem boots_of_no_stock (hs : Lines.count stock_line source = 0) (hc : compiles source = true)
    (starts : List (List Str × Option Str)) : boots compiles starts (some source) = some source := by
  induction starts with
  | nil => rfl
  | cons start starts ih =>
    have hstart := (@main_of_no_stock compiles start.1 start.2 source hs hc).1
    rw [boots, List.foldl_cons, hstart]
    exact ih

theorem main_ok {setting : Option Nat} (h : main compiles args env target = (.ok (setting, action), target')) (hp : preflight_only ∉ args) :
    ∃ source patched, target = some source ∧ target' = some patched ∧ parse_spinwait_ms env = .ok setting ∧
      prepare source setting = .ok (patched, action) ∧ compiles patched = true := by
  have hwrite : ¬ args.contains preflight_only = true := fun hin => hp (List.contains_iff_mem.mp hin)
  by_cases hargs : args.filter (fun arg => arg ≠ preflight_only) = []
  · unfold main at h
    rw [if_neg (not_not.mpr hargs)] at h
    cases target with
    | none => cases h
    | some source =>
      cases hpre : preflight compiles env source with
      | error e => simp [hpre] at h
      | ok r =>
        obtain ⟨setting', patched, action'⟩ := r
        simp only [hpre, if_neg hwrite, Prod.mk.injEq, Except.ok.injEq] at h
        obtain ⟨⟨rfl, rfl⟩, rfl⟩ := h
        unfold preflight at hpre
        cases hparse : parse_spinwait_ms env with
        | error e => simp [hparse, bind, Except.bind] at hpre
        | ok setting =>
          cases hprep : prepare source setting with
          | error e => simp [hparse, hprep, bind, Except.bind] at hpre
          | ok r =>
            by_cases hc : compiles r.1 = true
            · simp only [hparse, hprep, bind, Except.bind, hc, if_true, pure, Except.pure, Except.ok.injEq, Prod.mk.injEq] at hpre
              obtain ⟨rfl, rfl, rfl⟩ := hpre
              exact ⟨source, r.1, rfl, rfl, rfl, hprep, hc⟩
            · simp [hparse, hprep, hc, bind, Except.bind] at hpre
  · unfold main at h
    rw [if_pos hargs] at h
    cases h

/-- **A window stays.** After a start that sets a window of its own, the file has one line with it,
exact to the millisecond, and keeps it over any later starts; these succeed only for a line that is there. -/
theorem spinwait_settles (h : main compiles args env target = (.ok (some ms, action), target')) (hms : ms ≠ 1000)
    (hp : preflight_only ∉ args) : ∃ source patched, target = some source ∧ target' = some patched ∧
      Configured ms source patched ∧ Lines.count (configured_line ms) patched = 1 ∧
      (∃ d : Double.Numeral, d.unsigned_text = seconds_literal ms ∧ d.magnitude = ms / 1000) ∧
      ∀ starts, boots compiles starts target' = target' ∧ ∀ args' env',
        ((main compiles args' env' (boots compiles starts target')).1.isOk = true ↔ (∀ arg ∈ args', arg = preflight_only) ∧
          ∃ ms', parse_spinwait_ms env' = .ok (some ms') ∧ Lines.count (configured_line ms') patched = 1) := by
  obtain ⟨source, patched, rfl, rfl, hparse, hprep, hc⟩ := main_ok h hp
  obtain ⟨h0, hle⟩ := parse_le hparse
  have hlt : ms < 1000 := by omega
  obtain ⟨hconf, hstock, hone⟩ := configured_of_prepare h0 hlt hprep
  refine ⟨source, patched, rfl, rfl, hconf, hone, seconds_literal_spec h0 hlt, fun starts => ?_⟩
  have hboots := boots_of_no_stock hstock hc starts
  refine ⟨hboots, fun args' env' => ?_⟩
  rw [hboots]
  exact (main_of_no_stock hstock hc).2

/-! The value of the payloads, on a file of three lines. -/

def broadcast (literal : Str) : Str :=
  Lines.unlines '\n' ["        self,".toList, window literal, "    ) -> None:".toList] []

theorem main_broadcast : main (fun _ => true) [] (some "16".toList) (some (broadcast ['1'])) =
    (.ok (some 16, .patched), some (broadcast "0.016".toList)) := by
  decide +kernel

theorem spinwait_settles_payload : ∃ source patched, some (broadcast ['1']) = some source ∧ some (broadcast "0.016".toList) = some patched ∧
    Configured 16 source patched ∧ Lines.count (configured_line 16) patched = 1 ∧
    (∃ d : Double.Numeral, d.unsigned_text = seconds_literal 16 ∧ d.magnitude = 16 / 1000) ∧
    ∀ starts, boots (fun _ => true) starts (some (broadcast "0.016".toList)) = some (broadcast "0.016".toList) ∧ ∀ args' env',
      ((main (fun _ => true) args' env' (boots (fun _ => true) starts (some (broadcast "0.016".toList)))).1.isOk = true ↔
        (∀ arg ∈ args', arg = preflight_only) ∧
          ∃ ms', parse_spinwait_ms env' = .ok (some ms') ∧ Lines.count (configured_line ms') patched = 1) :=
  spinwait_settles main_broadcast (by decide) (by decide)

end

end AiroAgent.Spinwait
