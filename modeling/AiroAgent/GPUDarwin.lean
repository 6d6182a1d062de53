import AiroAgent.GPU
import AiroAgent.Lib.Stops

/-!
# GPU telemetry on macOS

There the memory of the GPU is the system's: its size is what `sysctl` prints,
and in use are three of the page counts of `vm_stat`.
-/

namespace AiroAgent.GPU

/-! ## vm_stat -/

structure VmStat where
  page_size : Option Nat
  active : Option Int
  wired : Option Int
  compressor : Option Int

/-- `page size of (\d+) bytes`, from here on. -/
def page_size_at (cs : List Char) : Option Nat :=
  if "page size of ".toList.isPrefixOf cs then
    match (cs.drop 13).takeWhile Char.isDigit with
    | [] => none
    | ds => if " bytes".toList.isPrefixOf ((cs.drop 13).dropWhile Char.isDigit) then some (Nat.ofDigitChars 10 ds 0) else none
  else none

def vm_page_size (out : String) : Option Nat := (Stops.lazy page_size_at out.toList).map Prod.snd

def undot (s : String) : String := String.ofList (s.toList.filter (· != '.'))

def vm_counts (out : String) : List (String × Int) :=
  (Text.lines out).filterMap fun line =>
    if line.toList.contains ':' then
      (Text.parse_int (Text.trim (undot (Text.cut ':' line).2)).toList).map fun r => (Text.trim (Text.cut ':' line).1, r.1)
    else none

/-- A later line with the same label counts. -/
def vm_count (out label : String) : Option Int := (vm_counts out).reverse.lookup label

def parse_vmstat (out : String) : VmStat where
  page_size := vm_page_size out
  active := vm_count out "Pages active"
  wired := vm_count out "Pages wired down"
  compressor := vm_count out "Pages occupied by compressor"

/-- `n / 1_048_576`, an arithmetic error when `n` has no double. -/
def mebibytes (n : Int) : Option ℚ := (Double.nearest n).bind fun x => Double.nearest (x / 1048576)

/-- No value is an arithmetic error, a `none` inside it the source's `:error`. -/
def parse_darwin_mem (total_out vmstat_out : String) : Option (Option (ℚ × ℚ)) :=
  let pages := parse_vmstat vmstat_out
  match Text.parse_int (Text.trim total_out).toList, pages.page_size with
  | some (total_bytes, _), some page_size => do
    let used_pages := pages.active.getD 0 + pages.wired.getD 0 + pages.compressor.getD 0
    let total_mb ← mebibytes total_bytes
    let used_mb ← mebibytes (used_pages * page_size)
    return some (total_mb, used_mb)
  | _, _ => some none

/-- The outputs and exit statuses of `sysctl` and `vm_stat`, unless they raise. -/
def poll_darwin (sysctl vm_stat : Option (String × Nat)) : Snapshot :=
  match sysctl, vm_stat with
  | some (total_out, 0), some (vmstat_out, 0) =>
    match parse_darwin_mem total_out vmstat_out with
    | some (some (total_mb, used_mb)) => .available {
        vram_used_mb := some used_mb
        vram_total_mb := some total_mb
        util_pct := none
        power_draw_w := none
        power_limit_w := none
        mem_source := .unified }
    | _ => .unavailable
  | _, _ => .unavailable

/-! ## What vm_stat prints -/

structure Counter where
  label : String
  blanks : Nat
  count : Nat
  colon : ':' ∉ label.toList
  line : '\n' ∉ label.toList
  trimmed : Text.trim label = label

def Counter.text (c : Counter) : String :=
  c.label ++ ":" ++ String.ofList (List.replicate c.blanks ' ') ++ toString (c.count : Int) ++ "."

def vm_header (page_size : Nat) : String :=
  "Mach Virtual Memory Statistics" ++ String.singleton ':' ++ (" (page size of " ++ toString (page_size : Int) ++ " bytes)")

def vm_stat (page_size : Nat) (counters : List Counter) : String :=
  Text.unlines (vm_header page_size :: counters.map Counter.text)

/-- The pages under a label; the last line with it counts. -/
def pages (counters : List Counter) (label : String) : Nat :=
  ((counters.reverse.find? fun c => c.label == label).map Counter.count).getD 0

section
variable {c : Counter} {counters : List Counter} {page_size bytes : Nat}

theorem not_mem_toString {n : Nat} {d : Char} (hsign : d ≠ '-') (hdigit : d.isDigit = false) : d ∉ (toString (n : Int)).toList := by
  intro h
  rcases Text.mem_toString h with rfl | h
  · exact hsign rfl
  · rw [hdigit] at h
    cases h

theorem filter_toString {n : Nat} : (toString (n : Int)).toList.filter (· != '.') = (toString (n : Int)).toList := by
  rw [List.filter_eq_self]
  intro d hd
  rw [bne_iff_ne]
  rintro rfl
  exact not_mem_toString (by decide) rfl hd

theorem undot_count : undot (String.ofList (List.replicate c.blanks ' ') ++ toString (c.count : Int) ++ ".") =
    String.ofList (List.replicate c.blanks ' ') ++ toString (c.count : Int) := by
  have hblanks : (List.replicate c.blanks ' ').filter (· != '.') = List.replicate c.blanks ' ' := by
    rw [List.filter_eq_self]
    intro d hd
    rw [List.eq_of_mem_replicate hd]
    rfl
  have hdot : ".".toList = ['.'] := rfl
  unfold undot
  rw [String.toList_append, String.toList_append, String.toList_ofList, List.filter_append, List.filter_append, filter_toString, hblanks, hdot,
    String.ofList_append, String.ofList_append, String.ofList_toList]
  simp

theorem trim_blanks {k : Nat} {s : String} : Text.trim (String.ofList (List.replicate k ' ') ++ s) = Text.trim s := by
  have hblank : ∀ d ∈ List.replicate k ' ', Text.is_space d = true := by
    intro d hd
    rw [List.eq_of_mem_replicate hd]
    rfl
  rw [Text.trim, String.toList_append, String.toList_ofList, List.dropWhile_append_of_pos hblank]
  rfl

theorem cut_text : Text.cut ':' c.text =
    (c.label, String.ofList (List.replicate c.blanks ' ') ++ toString (c.count : Int) ++ ".") := by
  have htext : c.text = c.label ++ String.singleton ':' ++ (String.ofList (List.replicate c.blanks ' ') ++ toString (c.count : Int) ++ ".") := by
    simp only [Counter.text, String.append_assoc]
    rfl
  rw [htext, Text.cut_append c.colon]

theorem count_line : (Text.parse_int (Text.trim (undot (Text.cut ':' c.text).2)).toList).map
    (fun r => (Text.trim (Text.cut ':' c.text).1, r.1)) = some (c.label, (c.count : Int)) := by
  rw [cut_text]
  dsimp only
  rw [undot_count, trim_blanks, Text.trim_toString, Text.parse_int_toString, c.trimmed]
  rfl

theorem parse_int_paren (cs : List Char) : Text.parse_int ('(' :: cs) = none := rfl

theorem undot_header : (undot (" (page size of " ++ toString (page_size : Int) ++ " bytes)")).toList =
    " (page size of ".toList ++ (toString (page_size : Int)).toList ++ " bytes)".toList := by
  have hopen : " (page size of ".toList.filter (· != '.') = " (page size of ".toList := rfl
  have hclose : " bytes)".toList.filter (· != '.') = " bytes)".toList := rfl
  rw [undot, String.toList_ofList, String.toList_append, String.toList_append, List.filter_append, List.filter_append, hopen, hclose,
    filter_toString]

theorem trim_header {s : String} (h : s.toList = " (page size of ".toList ++ (toString (page_size : Int)).toList ++ " bytes)".toList) :
    ∃ cs, (Text.trim s).toList = '(' :: cs := by
  refine ⟨"page size of ".toList ++ (toString (page_size : Int)).toList ++ " bytes)".toList, ?_⟩
  have hdrop : s.toList.dropWhile Text.is_space =
      '(' :: ("page size of ".toList ++ (toString (page_size : Int)).toList ++ " bytes)".toList) := by
    rw [h]
    rfl
  rw [Text.trim, hdrop, String.toList_ofList, List.rdropWhile_eq_self_iff]
  intro hne
  rw [List.getLast_cons (by simp), List.getLast_append_of_ne_nil _ (by simp)]
  decide

theorem cut_header : (Text.cut ':' (vm_header page_size)).2 = " (page size of " ++ toString (page_size : Int) ++ " bytes)" := by
  have hcolon : ':' ∉ "Mach Virtual Memory Statistics".toList := by decide
  unfold vm_header
  rw [Text.cut_append hcolon]

theorem count_header : Text.parse_int (Text.trim (undot (Text.cut ':' (vm_header page_size)).2)).toList = none := by
  rw [cut_header]
  obtain ⟨cs, hcs⟩ := trim_header undot_header
  rw [hcs, parse_int_paren]

theorem Counter.no_break (c : Counter) : '\n' ∉ c.text.toList := by
  have hblanks : '\n' ∉ List.replicate c.blanks ' ' := fun h => absurd (List.eq_of_mem_replicate h) (by decide)
  have hcount : '\n' ∉ (toString (c.count : Int)).toList := not_mem_toString (by decide) rfl
  have hcolon : '\n' ∉ ":".toList := by decide
  have hdot : '\n' ∉ ".".toList := by decide
  unfold Counter.text
  simp only [String.toList_append, String.toList_ofList, List.mem_append]
  rintro ((((h | h) | h) | h) | h)
  · exact c.line h
  · exact hcolon h
  · exact hblanks h
  · exact hcount h
  · exact hdot h

theorem header_no_break : '\n' ∉ (vm_header page_size).toList := by
  have hcount : '\n' ∉ (toString (page_size : Int)).toList := not_mem_toString (by decide) rfl
  have hfront : '\n' ∉ "Mach Virtual Memory Statistics".toList := by decide
  have hopen : '\n' ∉ " (page size of ".toList := by decide
  have hclose : '\n' ∉ " bytes)".toList := by decide
  unfold vm_header
  simp only [String.toList_append, String.toList_singleton, List.mem_append, List.mem_singleton]
  rintro ((h | h) | (h | h) | h)
  · exact hfront h
  · exact absurd h (by decide)
  · exact hopen h
  · exact hcount h
  · exact hclose h

theorem colon_text : ':' ∈ c.text.toList := by
  unfold Counter.text
  simp

theorem vm_counts_vm_stat : vm_counts (vm_stat page_size counters) = counters.map fun c => (c.label, (c.count : Int)) := by
  have hlines : ∀ s ∈ vm_header page_size :: counters.map Counter.text, '\n' ∉ s.toList := by
    intro s hs
    rcases List.mem_cons.mp hs with rfl | hs
    · exact header_no_break
    · obtain ⟨c, -, rfl⟩ := List.mem_map.mp hs
      exact c.no_break
  have hcolon : ∀ s ∈ vm_header page_size :: counters.map Counter.text, ':' ∈ s.toList := by
    intro s hs
    rcases List.mem_cons.mp hs with rfl | hs
    · unfold vm_header
      simp
    · obtain ⟨c, -, rfl⟩ := List.mem_map.mp hs
      exact colon_text
  have hfull : (vm_header page_size :: counters.map Counter.text).filter (· ≠ "") = vm_header page_size :: counters.map Counter.text := by
    rw [List.filter_eq_self]
    intro s hs
    simpa using Text.ne_empty_of_mem (hcolon s hs)
  rw [vm_counts, vm_stat, Text.lines_unlines hlines, hfull, List.filterMap_cons, if_pos (List.contains_iff_mem.mpr (hcolon _ List.mem_cons_self)), count_header,
    Option.map_none, List.filterMap_map]
  have hrows : ∀ c ∈ counters, ((fun line : String => if line.toList.contains ':' then
      (Text.parse_int (Text.trim (undot (Text.cut ':' line).2)).toList).map fun r => (Text.trim (Text.cut ':' line).1, r.1)
      else none) ∘ Counter.text) c = some (c.label, (c.count : Int)) := by
    intro c _
    rw [Function.comp_apply, if_pos (List.contains_iff_mem.mpr colon_text), count_line]
  rw [List.filterMap_congr hrows, List.filterMap_eq_map']

theorem page_size_at_none {a : Char} {l : List Char} (h : a ≠ 'p') : page_size_at (a :: l) = none := by
  have hlit : "page size of ".toList = 'p' :: "age size of ".toList := rfl
  have hpre : ¬ "page size of ".toList.isPrefixOf (a :: l) = true := by
    rw [hlit, List.isPrefixOf_iff_prefix, List.cons_prefix_cons]
    exact fun hp => h hp.1.symm
  rw [page_size_at, if_neg hpre]

theorem page_size_at_digits {l : List Char} :
    page_size_at ("page size of ".toList ++ ((toString (page_size : Int)).toList ++ (" bytes".toList ++ l))) = some page_size := by
  have hdigits : (toString (page_size : Int)).toList = Nat.toDigits 10 page_size := by
    rw [Text.toList_toString, if_pos (Int.natCast_nonneg _), Int.toNat_natCast]
  have hpre : "page size of ".toList.isPrefixOf
      ("page size of ".toList ++ ((toString (page_size : Int)).toList ++ (" bytes".toList ++ l))) = true := by simp
  have hdrop : ("page size of ".toList ++ ((toString (page_size : Int)).toList ++ (" bytes".toList ++ l))).drop 13 =
      (toString (page_size : Int)).toList ++ (" bytes".toList ++ l) := rfl
  have hall : ∀ d ∈ (toString (page_size : Int)).toList, d.isDigit = true := by
    rw [hdigits]
    intro d hd
    exact Text.digit_of_mem hd
  have htake : ((toString (page_size : Int)).toList ++ (" bytes".toList ++ l)).takeWhile Char.isDigit = Nat.toDigits 10 page_size := by
    rw [List.takeWhile_append_of_pos hall, hdigits]
    exact List.append_nil _
  have hrest : ((toString (page_size : Int)).toList ++ (" bytes".toList ++ l)).dropWhile Char.isDigit = " bytes".toList ++ l := by
    rw [List.dropWhile_append_of_pos hall]
    rfl
  rw [page_size_at, if_pos hpre, hdrop, htake, hrest]
  split
  · next h => exact absurd h Nat.toDigits_ne_nil
  · rw [if_pos (by simp), Nat.ofDigitChars_ten_toDigits]

theorem lazy_page_size {c l : List Char} (hc : 'p' ∉ c) : Stops.lazy page_size_at (c ++
    ("page size of ".toList ++ ((toString (page_size : Int)).toList ++ (" bytes".toList ++ l)))) = some (c, page_size) := by
  apply Stops.lazy_append page_size_at_digits
  intro c₁ c₂ hsplit hne
  obtain ⟨a, c₂, rfl⟩ := List.exists_cons_of_ne_nil hne
  refine page_size_at_none ?_
  rintro rfl
  exact hc (hsplit ▸ by simp)

theorem toList_pieces (front middle number back : String) (c : Char) : (front ++ String.singleton c ++ (middle ++ number ++ back)).toList =
    front.toList ++ [c] ++ (middle.toList ++ number.toList ++ back.toList) := by
  simp

theorem header_toList : (vm_header page_size).toList = "Mach Virtual Memory Statistics".toList ++ [':'] ++
    (" (page size of ".toList ++ (toString (page_size : Int)).toList ++ " bytes)".toList) := toList_pieces _ _ _ _ _

theorem vm_stat_toList : (vm_stat page_size counters).toList =
    (vm_header page_size).toList ++ '\n' :: (Text.unlines (counters.map Counter.text)).toList := by
  simp [vm_stat, Text.unlines]

theorem regroup {front middle word number back rest : List Char} {c d : Char} :
    front ++ [c] ++ (middle ++ word ++ number ++ (back ++ [d])) ++ rest =
      (front ++ c :: middle) ++ (word ++ (number ++ (back ++ d :: rest))) := by
  simp

theorem vm_page_size_vm_stat : vm_page_size (vm_stat page_size counters) = some page_size := by
  have hopen : " (page size of ".toList = " (".toList ++ "page size of ".toList := by decide
  have hclose : " bytes)".toList = " bytes".toList ++ [')'] := by decide
  have hfree : 'p' ∉ "Mach Virtual Memory Statistics".toList ++ ':' :: " (".toList := by decide
  rw [vm_page_size, vm_stat_toList, header_toList, hopen, hclose, regroup, lazy_page_size hfree]
  rfl

theorem lookup_counts {label : String} : (counters.map fun c => (c.label, (c.count : Int))).lookup label =
    (counters.find? fun c => c.label == label).map fun c => (c.count : Int) := by
  induction counters with
  | nil => rfl
  | cons c counters ih =>
    rw [List.map_cons, List.lookup_cons, List.find?_cons, Bool.beq_comm, ih]
    cases c.label == label <;> rfl

theorem vm_count_vm_stat (label : String) : (vm_count (vm_stat page_size counters) label).getD 0 = pages counters label := by
  rw [vm_count, vm_counts_vm_stat, ← List.map_reverse, lookup_counts, pages]
  cases counters.reverse.find? fun c => c.label == label <;> rfl

/-! ## The pool -/

theorem mebibytes_eq {n : Nat} (h : n < 2 ^ 53) : mebibytes n = some (n / 2 ^ 20 : ℚ) := by
  have habs : |(n : ℤ)| < 2 ^ 53 := by
    rw [abs_of_nonneg (Int.natCast_nonneg n)]
    exact_mod_cast h
  have hwhole : Double.nearest (n : ℤ) = some (n : ℚ) := by
    have := Double.nearest_of_significand (e := 0) habs (by norm_num) (by norm_num)
    simpa using this
  have hpart : Double.nearest (n / 1048576 : ℚ) = some (n / 2 ^ 20 : ℚ) := by
    have hunit : (n / 1048576 : ℚ) = ((n : ℤ) : ℚ) * 2 ^ (-20 : ℤ) := by
      rw [zpow_neg, ← div_eq_mul_inv]
      norm_num
    have hunit' : (n / 2 ^ 20 : ℚ) = ((n : ℤ) : ℚ) * 2 ^ (-20 : ℤ) := by
      rw [← hunit]
      norm_num
    rw [hunit, hunit', Double.nearest_of_significand habs (by norm_num) (by norm_num)]
  rw [mebibytes, hwhole]
  exact hpart

def used_pages (counters : List Counter) : Nat :=
  pages counters "Pages active" + pages counters "Pages wired down" + pages counters "Pages occupied by compressor"

/-- **The unified pool.** Whatever counters `vm_stat` lists, in whatever order and with
whatever labels besides, a host below 8 PiB is reported with the memory it has as its
total and the active, wired and compressed pages as what is used of it, both exactly. -/
theorem darwin_pool_read (hb : bytes < 2 ^ 53) (hu : used_pages counters * page_size < 2 ^ 53) :
    poll_darwin (some (toString (bytes : Int) ++ "\n", 0)) (some (vm_stat page_size counters, 0)) = .available {
      vram_used_mb := some (used_pages counters * page_size / 2 ^ 20 : ℚ)
      vram_total_mb := some (bytes / 2 ^ 20 : ℚ)
      util_pct := none
      power_draw_w := none
      power_limit_w := none
      mem_source := .unified } := by
  have htotal : Text.parse_int (Text.trim (toString (bytes : Int) ++ "\n")).toList = some ((bytes : Int), []) := by
    rw [Text.trim_break, Text.trim_toString, Text.parse_int_toString]
  have hused : ((pages counters "Pages active" : Int) + pages counters "Pages wired down" + pages counters "Pages occupied by compressor") *
      (page_size : Int) = ((used_pages counters * page_size : Nat) : Int) := by
    simp [used_pages]
  have hpool : parse_darwin_mem (toString (bytes : Int) ++ "\n") (vm_stat page_size counters) =
      some (some ((bytes / 2 ^ 20 : ℚ), (used_pages counters * page_size / 2 ^ 20 : ℚ))) := by
    simp only [parse_darwin_mem, parse_vmstat, htotal, vm_page_size_vm_stat, vm_count_vm_stat, hused, mebibytes_eq hb, mebibytes_eq hu]
    simp
  simp only [poll_darwin, hpool]

end

def mac : List Counter := [
  ⟨"Pages free", 31, 4231, by decide, by decide, by decide⟩,
  ⟨"Pages active", 27, 598340, by decide, by decide, by decide⟩,
  ⟨"Pages wired down", 23, 301274, by decide, by decide, by decide⟩,
  ⟨"Pages occupied by compressor", 11, 126002, by decide, by decide, by decide⟩]

theorem darwin_pool_read_mac : poll_darwin (some (toString (34359738368 : Int) ++ "\n", 0)) (some (vm_stat 16384 mac, 0)) = .available {
    vram_used_mb := some (64101 / 4)
    vram_total_mb := some 32768
    util_pct := none
    power_draw_w := none
    power_limit_w := none
    mem_source := .unified } := by
  have hpages : used_pages mac = 1025616 := by decide
  have hread := @darwin_pool_read mac 16384 34359738368 (by norm_num) (by rw [hpages]; norm_num)
  have hused : (((1025616 : Nat) : ℚ) * ((16384 : Nat) : ℚ) / 2 ^ 20) = 64101 / 4 := by norm_num
  have htotal : (((34359738368 : Nat) : ℚ) / 2 ^ 20) = 32768 := by norm_num
  rw [hpages, hused, htotal] at hread
  exact hread

end AiroAgent.GPU
