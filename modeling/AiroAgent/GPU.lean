import AiroAgent.Lib.Double

/-!
# GPU telemetry

What `GPU` reads off a listing of `nvidia-smi`, and off `/proc/meminfo` where the
listing has no memory total. A float is the double it stands for.
-/

namespace AiroAgent.GPU

inductive MemSource where
  | nvml
  | unified
  deriving DecidableEq, Repr

structure Readings where
  vram_used_mb : Option ℚ
  vram_total_mb : Option ℚ
  util_pct : Option ℚ
  power_draw_w : Option ℚ
  power_limit_w : Option ℚ
  mem_source : MemSource
  deriving DecidableEq, Repr

inductive Snapshot where
  | unavailable
  | available (readings : Readings)
  deriving DecidableEq, Repr

/-! ## nvidia-smi -/

def to_num (s : String) : Option ℚ := (Double.parse s.toList).map Prod.fst

def parse (out : String) : Snapshot :=
  match (Text.fields ',' (Text.trim out)).map Text.trim with
  | [used, total, util, draw, limit] => .available {
      vram_used_mb := to_num used
      vram_total_mb := to_num total
      util_pct := to_num util
      power_draw_w := to_num draw
      power_limit_w := to_num limit
      mem_source := .nvml }
  | _ => .unavailable

example : parse "[N/A], [N/A], 0, 512.5, [N/A]" = .available ⟨none, none, some 0, some (1025 / 2), none, .nvml⟩ := by
  decide +kernel

/-! ## The unified pool -/

def drop_unit : List Char → List Char
  | ' ' :: 'k' :: 'B' :: cs => drop_unit cs
  | c :: cs => c :: drop_unit cs
  | [] => []

/-- What `\s` of a regular expression matches. -/
def is_blank (c : Char) : Bool := c == ' ' || (9 ≤ c.toNat && c.toNat ≤ 13)

def meminfo_fields (contents : String) : List (String × String) :=
  (Text.lines contents).filterMap fun line =>
    if ':' ∈ line.toList then
      let (key, val) := Text.cut ':' line
      some (key, Text.trim (String.ofList (drop_unit (val.toList.dropWhile is_blank))))
    else none

/-- A later line with the same key counts. -/
def meminfo_value (contents key : String) : String := ((meminfo_fields contents).reverse.lookup key).getD ""

/-- No value is an arithmetic error, a `none` inside it the source's `:error`. -/
def parse_meminfo (contents : String) : Option (Option (ℚ × ℚ)) :=
  match to_num (meminfo_value contents "MemTotal"), to_num (meminfo_value contents "MemAvailable") with
  | some total_kb, some avail_kb => do
    let total_mb ← Double.nearest (total_kb / 1024)
    let used_kb ← Double.nearest (total_kb - avail_kb)
    let used_mb ← Double.nearest (used_kb / 1024)
    return some (total_mb, used_mb)
  | _, _ => some none

/-- `meminfo` is the contents of `/proc/meminfo`, when it can be read. -/
def with_memory_fallback (meminfo : Option String) : Snapshot → Option Snapshot
  | .unavailable => some .unavailable
  | .available readings =>
    match readings.vram_total_mb, meminfo with
    | none, some contents =>
      (parse_meminfo contents).map fun
        | some (total_mb, used_mb) => .available
          { readings with vram_total_mb := some total_mb, vram_used_mb := some used_mb, mem_source := .unified }
        | none => .available readings
    | _, _ => some (.available readings)

/-- `result` is the output and exit status of the command, unless it raises. -/
def poll_nvidia (result : Option (String × Nat)) (meminfo : Option String) : Snapshot :=
  match result with
  | some (out, 0) => (with_memory_fallback meminfo (parse out)).getD .unavailable
  | _ => .unavailable

/-! ## Listings -/

/-- The text of a cell: a number or a mark like `[N/A]`, with any space around it. -/
structure Cell where
  text : String
  comma : ',' ∉ text.toList
  line : '\n' ∉ text.toList

def Cell.Holds (c : Cell) (d : Double.Numeral) : Prop := Text.trim c.text = d.text

structure Row where
  used : Cell
  total : Cell
  util : Cell
  draw : Cell
  limit : Cell

def Row.cells (r : Row) : List Cell := [r.used, r.total, r.util, r.draw, r.limit]

def Row.text (r : Row) : String := Text.join ',' (r.cells.map Cell.text)

/-- One line for each GPU, the last with or without a line break. -/
def listing (rows : List Row) (ended : Bool) : String :=
  Text.join '\n' (rows.map Row.text) ++ if ended then "\n" else ""

def Row.readings (r : Row) : Readings where
  vram_used_mb := to_num (Text.trim r.used.text)
  vram_total_mb := to_num (Text.trim r.total.text)
  util_pct := to_num (Text.trim r.util.text)
  power_draw_w := to_num (Text.trim r.draw.text)
  power_limit_w := to_num (Text.trim r.limit.text)
  mem_source := .nvml

variable {c : Cell} {d : Double.Numeral} {row : Row} {rows : List Row} {ended : Bool} {out : String}

theorem to_num_of_holds (h : c.Holds d) : to_num (Text.trim c.text) = Double.of_numeral d := by
  rw [h, to_num, Double.parse_text]
  simp [Function.comp_def]

theorem Row.fields_text : Text.fields ',' row.text = row.cells.map Cell.text := by
  apply Text.fields_join
  · simp [Row.cells]
  · intro s hs
    obtain ⟨c, -, rfl⟩ := List.mem_map.mp hs
    exact c.comma

theorem Row.count_text : row.text.toList.count ',' = 4 := by
  have hlength : (Text.fields ',' row.text).length = 5 := by
    rw [Row.fields_text]
    rfl
  rw [Text.length_fields] at hlength
  omega

theorem count_listing : (listing rows ended).toList.count ',' = 4 * rows.length := by
  have hend : (if ended then "\n" else "").toList.count ',' = 0 := by cases ended <;> rfl
  have hrows : ((rows.map Row.text).map (·.toList.count ',')).sum = 4 * rows.length := by
    simp [Function.comp_def, Row.count_text, Nat.mul_comm]
  rw [listing, String.toList_append, List.count_append, hend, Text.count_join (by decide), hrows,
    Nat.add_zero]

theorem trim_listing : Text.trim (listing [row] ended) = Text.trim row.text := by
  cases ended with
  | false => simp [listing, Text.join]
  | true => simp [listing, Text.join, Text.trim_break]

theorem parse_single : parse (listing [row] ended) = .available row.readings := by
  rw [parse, trim_listing, Text.fields_trim _ (by decide), Row.fields_text]
  rfl

/-- A comma for a comma: a second row is five fields too many. -/
theorem parse_of_ne_single (h : rows.length ≠ 1) : parse (listing rows ended) = .unavailable := by
  have hlength : ((Text.fields ',' (Text.trim (listing rows ended))).map Text.trim).length ≠ 5 := by
    rw [Text.fields_trim _ (by decide), List.length_map, Text.length_fields, count_listing]
    omega
  unfold parse
  split
  · next hfields =>
    rw [hfields] at hlength
    exact absurd rfl hlength
  · rfl

/-! ## The telemetry of a host -/

/-- The snapshot is there, and when every total is a number its own is no less than any of them. -/
def Reported (rows : List Row) (snapshot : Snapshot) : Prop :=
  ∃ readings, snapshot = .available readings ∧
    ((∀ r ∈ rows, ∃ d, r.total.Holds d) → ∃ total, readings.vram_total_mb = some total ∧
      ∀ r ∈ rows, ∀ d t, r.total.Holds d → Double.of_numeral d = some t → t ≤ total)

def Cell.InRange (c : Cell) : Prop := ∀ d, c.Holds d → (Double.of_numeral d).isSome = true

theorem Row.total_readings (h : row.total.Holds d) : row.readings.vram_total_mb = Double.of_numeral d := by
  simp only [Row.readings, to_num_of_holds h]

theorem reported_single (h : row.total.InRange) : Reported [row] (parse (listing [row] ended)) := by
  refine ⟨row.readings, parse_single, fun hall => ?_⟩
  obtain ⟨d, hd⟩ := hall row List.mem_cons_self
  obtain ⟨total, htotal⟩ := Option.isSome_iff_exists.mp (h d hd)
  refine ⟨total, (Row.total_readings hd).trans htotal, fun r hr d' t hd' ht => ?_⟩
  rw [List.mem_singleton] at hr
  subst hr
  rw [← Row.total_readings hd', Row.total_readings hd, htotal, Option.some.injEq] at ht
  exact ht.ge

/-- **Telemetry.** What is read off a listing of any number of rows reports its host
exactly when there is one row, with a total in range. -/
theorem reported_iff (rows : List Row) (ended : Bool) :
    Reported rows (parse (listing rows ended)) ↔ ∃ row, rows = [row] ∧ row.total.InRange := by
  constructor
  · intro h
    obtain ⟨readings, hparse, htotal⟩ := h
    have hone : rows.length = 1 := by
      by_contra hne
      rw [parse_of_ne_single hne] at hparse
      cases hparse
    obtain ⟨row, rfl⟩ := List.length_eq_one_iff.mp hone
    rw [parse_single, Snapshot.available.injEq] at hparse
    subst hparse
    refine ⟨row, rfl, fun d hd => ?_⟩
    obtain ⟨total, hsome, -⟩ := htotal (by simpa using ⟨d, hd⟩)
    rw [← Row.total_readings hd, hsome]
    rfl
  · intro h
    obtain ⟨row, rfl, hrange⟩ := h
    exact reported_single hrange

def discrete_gpu : Row where
  used := ⟨"1234", by decide, by decide⟩
  total := ⟨" 32607", by decide, by decide⟩
  util := ⟨" 15", by decide, by decide⟩
  draw := ⟨" 250.5", by decide, by decide⟩
  limit := ⟨" 575", by decide, by decide⟩

theorem two_gpus_unreported :
    listing [discrete_gpu, discrete_gpu] true = "1234, 32607, 15, 250.5, 575\n1234, 32607, 15, 250.5, 575\n" ∧
      ¬ Reported [discrete_gpu, discrete_gpu] (parse "1234, 32607, 15, 250.5, 575\n1234, 32607, 15, 250.5, 575\n") := by
  refine ⟨by decide +kernel, fun h => ?_⟩
  obtain ⟨readings, hparse, -⟩ := h
  have hnone : parse "1234, 32607, 15, 250.5, 575\n1234, 32607, 15, 250.5, 575\n" = .unavailable := by decide +kernel
  rw [hnone] at hparse
  cases hparse

/-! ## Memory of its own -/

/-- With a total of its own, a snapshot is not filled in from the pool of the host. -/
theorem with_memory_fallback_of_total {meminfo : Option String} {readings : Readings} {total : ℚ}
    (h : readings.vram_total_mb = some total) :
    with_memory_fallback meminfo (.available readings) = some (.available readings) := by
  simp only [with_memory_fallback, h]

theorem poll_single {meminfo : Option String} {total : ℚ} (h : row.readings.vram_total_mb = some total) :
    poll_nvidia (some (listing [row] ended, 0)) meminfo = parse (listing [row] ended) := by
  simp only [poll_nvidia, parse_single, with_memory_fallback_of_total h]
  rfl

/-- A host of any other number of GPUs than one is polled in vain. -/
theorem poll_of_ne_single {meminfo : Option String} (h : rows.length ≠ 1) :
    poll_nvidia (some (listing rows ended, 0)) meminfo = .unavailable := by
  simp only [poll_nvidia, parse_of_ne_single h]
  rfl

/-- GPUs with memory of their own are reported by a poll when there is one of them. -/
theorem poll_reported_iff (h : ∀ r ∈ rows, ∃ d, r.total.Holds d ∧ (Double.of_numeral d).isSome = true)
    (ended : Bool) (meminfo : Option String) :
    Reported rows (poll_nvidia (some (listing rows ended, 0)) meminfo) ↔ rows.length = 1 := by
  by_cases hone : rows.length = 1
  · obtain ⟨row, rfl⟩ := List.length_eq_one_iff.mp hone
    obtain ⟨d, hd, hsome⟩ := h row List.mem_cons_self
    obtain ⟨total, htotal⟩ := Option.isSome_iff_exists.mp hsome
    have hrange : row.total.InRange := by
      intro d' hd'
      rwa [← Row.total_readings hd', Row.total_readings hd]
    rw [poll_single ((Row.total_readings hd).trans htotal)]
    exact iff_of_true (reported_single hrange) hone
  · rw [poll_of_ne_single hone]
    refine iff_of_false (fun hr => ?_) hone
    obtain ⟨readings, hnone, -⟩ := hr
    cases hnone

end AiroAgent.GPU
