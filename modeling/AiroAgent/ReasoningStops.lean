import AiroAgent.Lib.Stops
import Mathlib.Order.Lattice

/-!
# Stop strings and reasoning

The overlay that keeps the stop strings of a client dormant while the engine is
still reasoning. The end of the reasoning is looked for in a window behind each
piece of new text; the window is long enough for a marker that arrives in parts.
-/

namespace AiroAgent.ReasoningStops

abbrev Str := List Char

structure Detokenizer where
  stop : List Str
  output_text : Str := []
  reasoning_stop_guard : Bool := false
  reasoning_closed : Bool := false
  reasoning_end_str : Str := "</think>".toList

/-! ## Arming -/

/-- What the tokenizer gives for a text: one token by `convert_tokens_to_ids`, several by `encode`. -/
structure Tokenizer where
  convert : Option (Str → Option Int)
  encode : Option (Str → List Int)

/-- The markers of the engine's reasoning configuration, each empty when it is not set. -/
structure ReasoningConfig where
  reasoning_start_str : Str := []
  reasoning_end_str : Str := []

def or_default (s fallback : Str) : Str := if s = [] then fallback else s

def reasoning_stop_markers (rc : Option ReasoningConfig) : Str × Str :=
  match rc with
  | some rc => (or_default rc.reasoning_start_str "<think>".toList, or_default rc.reasoning_end_str "</think>".toList)
  | none => ("<think>".toList, "</think>".toList)

def suppress_stops_enabled (env : String → Option String) : Bool :=
  match env "GLM53_SUPPRESS_STOPS_IN_REASONING" with
  | some value => value != "0"
  | none =>
    match env "VLLM_SUPPRESS_STOPS_IN_REASONING" with
    | some value => value != "0"
    | none => true

def think_id (tokenizer : Tokenizer) (start_str : Str) : Option Int :=
  match tokenizer.convert.bind fun convert => convert start_str with
  | some id =>
    if 0 ≤ id then some id
    else
      match tokenizer.encode.map fun encode => encode start_str with
      | some [id] => some id
      | _ => some id
  | none =>
    match tokenizer.encode.map fun encode => encode start_str with
    | some [id] => some id
    | _ => none

def maybe_enable_reasoning_stop_guard (env : String → Option String) (rc : Option ReasoningConfig) (tokenizer : Tokenizer)
    (prompt_token_ids : List Int) (detok : Detokenizer) : Detokenizer :=
  if suppress_stops_enabled env && !detok.stop.isEmpty then
    let (start_str, end_str) := reasoning_stop_markers rc
    match think_id tokenizer start_str, prompt_token_ids.getLast? with
    | some id, some last =>
      if 0 ≤ id ∧ last = id then { detok with reasoning_stop_guard := true, reasoning_end_str := end_str } else detok
    | _, _ => detok
  else detok

def from_new_request (env : String → Option String) (rc : Option ReasoningConfig) (tokenizer : Tokenizer)
    (prompt_token_ids : List Int) (stop : List Str) : Detokenizer :=
  maybe_enable_reasoning_stop_guard env rc tokenizer prompt_token_ids { stop := stop }

/-! ## Updates -/

/-- New text, from where stop strings are looked for, and whether there are tokens enough for them. -/
structure Update where
  text : Str
  stop_check_offset : Nat
  past_min_tokens : Bool

/-- The detokenizer after the new text, and from where it looks for stop strings, if it does. -/
def update (detok : Detokenizer) (u : Update) : Detokenizer × Option Nat :=
  let output_text := detok.output_text ++ u.text
  let marker := detok.reasoning_end_str
  let (reasoning_closed, stop_check_offset) :=
    if detok.reasoning_stop_guard && !detok.reasoning_closed then
      match Stops.find_from marker output_text (u.stop_check_offset - (marker.length - 1)) with
      | some idx => (true, max u.stop_check_offset (idx + marker.length))
      | none => (false, u.stop_check_offset)
    else (detok.reasoning_closed, u.stop_check_offset)
  ({ detok with output_text, reasoning_closed },
    if !detok.stop.isEmpty && u.past_min_tokens && (!detok.reasoning_stop_guard || reasoning_closed) then some stop_check_offset
    else none)

def updates : Detokenizer → List Update → List (Detokenizer × Update × Option Nat)
  | _, [] => []
  | detok, u :: us => ((update detok u).1, u, (update detok u).2) :: updates (update detok u).1 us

/-- Stop strings are looked for in what is new, or in less of it while tokens are too few. -/
def Late : Str → List Update → Prop
  | _, [] => True
  | text, u :: us => text.length ≤ u.stop_check_offset ∧ Late (text ++ u.text) us

/-- Stop strings are looked for in all that is new. -/
def Prompt : Str → List Update → Prop
  | _, [] => True
  | text, u :: us => u.stop_check_offset = text.length ∧ Prompt (text ++ u.text) us

/-! ## What is looked for, and where -/

/-- The guard of a request that reasons, with the end of the reasoning in the text once it is closed. -/
structure Armed (detok : Detokenizer) : Prop where
  guard : detok.reasoning_stop_guard = true
  marker : detok.reasoning_end_str ≠ []
  closed : detok.reasoning_closed = true → detok.reasoning_end_str <:+: detok.output_text

section
variable {env : String → Option String} {rc : Option ReasoningConfig} {tokenizer : Tokenizer} {prompt_token_ids : List Int}
  {stop : List Str} {marker text : Str} {offset : Nat} {detok : Detokenizer} {us : List Update} {u : Update}
  {x : Detokenizer × Update × Option Nat}

theorem find_of_infix (hne : marker ≠ []) (h : marker <:+: text) :
    ∃ n, Stops.find marker text = some n ∧ n + marker.length ≤ text.length := by
  cases hf : Stops.find marker text with
  | none => exact absurd h ((Stops.find_none hne).mp hf)
  | some n =>
    obtain ⟨c, rest, rfl, rfl, _⟩ := Stops.find_some hf
    refine ⟨c.length, rfl, ?_⟩
    simp only [List.length_append]
    omega

theorem infix_of_find {n : Nat} (h : Stops.find marker text = some n) : marker <:+: text := by
  obtain ⟨c, rest, rfl, _, _⟩ := Stops.find_some h
  exact List.infix_append' c marker rest

/-- What an update of an armed detokenizer does, by whether the reasoning was over before it. -/
theorem update_open (ha : Armed detok) (hc : detok.reasoning_closed = false) :
    (∃ idx, Stops.find_from detok.reasoning_end_str (detok.output_text ++ u.text)
          (u.stop_check_offset - (detok.reasoning_end_str.length - 1)) = some idx ∧
        update detok u = ({ detok with output_text := detok.output_text ++ u.text, reasoning_closed := true },
          if !detok.stop.isEmpty && u.past_min_tokens then
            some (max u.stop_check_offset (idx + detok.reasoning_end_str.length)) else none)) ∨
      (Stops.find_from detok.reasoning_end_str (detok.output_text ++ u.text)
          (u.stop_check_offset - (detok.reasoning_end_str.length - 1)) = none ∧
        update detok u = ({ detok with output_text := detok.output_text ++ u.text }, none)) := by
  unfold update
  cases hf : Stops.find_from detok.reasoning_end_str (detok.output_text ++ u.text)
      (u.stop_check_offset - (detok.reasoning_end_str.length - 1)) with
  | none => exact .inr ⟨rfl, by simp [ha.guard, hc, hf]⟩
  | some idx => exact .inl ⟨idx, rfl, by simp [ha.guard, hc, hf]⟩

theorem update_closed (hc : detok.reasoning_closed = true) :
    update detok u = ({ detok with output_text := detok.output_text ++ u.text },
      if !detok.stop.isEmpty && u.past_min_tokens then some u.stop_check_offset else none) := by
  simp [update, hc]

theorem update_late (ha : Armed detok) (ho : detok.output_text.length ≤ u.stop_check_offset) :
    Armed (update detok u).1 ∧ ∀ o, (update detok u).2 = some o →
      ∃ n, Stops.find detok.reasoning_end_str (detok.output_text ++ u.text) = some n ∧ n + detok.reasoning_end_str.length ≤ o := by
  cases hc : detok.reasoning_closed with
  | true =>
    obtain ⟨n, hn, hle⟩ := find_of_infix ha.marker (ha.closed hc)
    have hn' : Stops.find detok.reasoning_end_str (detok.output_text ++ u.text) = some n := Stops.find_append_left ha.marker hn
    rw [update_closed hc]
    refine ⟨⟨ha.guard, ha.marker, fun _ => infix_of_find hn'⟩, fun o h => ⟨n, hn', ?_⟩⟩
    simp only at h
    split at h
    · cases h
      exact hle.trans ho
    · cases h
  | false =>
    rcases @update_open detok u ha hc with ⟨idx, hf, hu⟩ | ⟨hf, hu⟩
    · obtain ⟨n, hle, hn⟩ := Stops.find_from_le hf
      rw [hu]
      refine ⟨⟨ha.guard, ha.marker, fun _ => infix_of_find hn⟩, fun o h => ⟨n, hn, ?_⟩⟩
      simp only at h
      split at h
      · cases h
        exact (Nat.add_le_add_right hle _).trans (le_max_right _ _)
      · cases h
    · rw [hu]
      refine ⟨⟨ha.guard, ha.marker, fun h => ?_⟩, fun o h => ?_⟩
      · rw [hc] at h
        cases h
      · cases h

theorem update_prompt (ha : Armed detok) (hc : detok.reasoning_end_str <:+: detok.output_text → detok.reasoning_closed = true)
    (ho : u.stop_check_offset = detok.output_text.length) :
    (detok.reasoning_end_str <:+: detok.output_text ++ u.text → (update detok u).1.reasoning_closed = true) ∧
      (update detok u).2 = if !detok.stop.isEmpty && u.past_min_tokens then
        (Stops.find detok.reasoning_end_str (detok.output_text ++ u.text)).map fun n =>
          max u.stop_check_offset (n + detok.reasoning_end_str.length) else none := by
  cases hclosed : detok.reasoning_closed with
  | true =>
    obtain ⟨n, hn, hle⟩ := find_of_infix ha.marker (ha.closed hclosed)
    have hmax : max u.stop_check_offset (n + detok.reasoning_end_str.length) = u.stop_check_offset := by
      rw [ho]
      exact max_eq_left hle
    rw [update_closed hclosed, Stops.find_append_left ha.marker hn, Option.map_some, hmax]
    exact ⟨fun _ => hclosed, rfl⟩
  | false =>
    have hfree : ¬ detok.reasoning_end_str <:+: detok.output_text := by
      intro hin
      rw [hc hin] at hclosed
      cases hclosed
    have hwindow : Stops.find_from detok.reasoning_end_str (detok.output_text ++ u.text)
        (u.stop_check_offset - (detok.reasoning_end_str.length - 1)) =
          Stops.find detok.reasoning_end_str (detok.output_text ++ u.text) := by
      rw [ho]
      exact Stops.find_from_window hfree
    rcases @update_open detok u ha hclosed with ⟨idx, hf, hu⟩ | ⟨hf, hu⟩
    · rw [hu, ← hwindow, hf]
      exact ⟨fun _ => rfl, rfl⟩
    · rw [hu, ← hwindow, hf]
      refine ⟨fun hin => ?_, by simp⟩
      rw [hwindow] at hf
      exact absurd hin ((Stops.find_none ha.marker).mp hf)

/-! ## Requests -/

@[simp] theorem update_guard : (update detok u).1.reasoning_stop_guard = detok.reasoning_stop_guard := rfl

/-- Where stop strings are looked for once nothing keeps them dormant. -/
def Resumed (x : Detokenizer × Update × Option Nat) : Prop :=
  x.2.2 = if !x.1.stop.isEmpty && x.2.1.past_min_tokens then
    (Stops.find x.1.reasoning_end_str x.1.output_text).map fun n => max x.2.1.stop_check_offset (n + x.1.reasoning_end_str.length)
  else none

theorem updates_late (ha : Armed detok) (hl : Late detok.output_text us) (hx : x ∈ updates detok us) (hlook : x.2.2 = some offset) :
    ∃ n, Stops.find x.1.reasoning_end_str x.1.output_text = some n ∧ n + x.1.reasoning_end_str.length ≤ offset := by
  induction us generalizing detok with
  | nil => cases hx
  | cons u us ih =>
    obtain ⟨harmed, hstep⟩ := update_late ha hl.1
    rcases List.mem_cons.mp hx with rfl | hx
    · exact hstep offset hlook
    · exact ih harmed hl.2 hx

theorem updates_prompt (ha : Armed detok) (hc : detok.reasoning_end_str <:+: detok.output_text → detok.reasoning_closed = true)
    (hp : Prompt detok.output_text us) (hx : x ∈ updates detok us) : Resumed x := by
  induction us generalizing detok with
  | nil => cases hx
  | cons u us ih =>
    obtain ⟨hclosed, hstep⟩ := update_prompt ha hc hp.1
    rcases List.mem_cons.mp hx with rfl | hx
    · exact hstep
    · exact ih (update_late ha hp.1.ge).1 hclosed hp.2 hx

theorem updates_unarmed (hg : detok.reasoning_stop_guard = false) (hx : x ∈ updates detok us) :
    x.2.2 = if !x.1.stop.isEmpty && x.2.1.past_min_tokens then some x.2.1.stop_check_offset else none := by
  induction us generalizing detok with
  | nil => cases hx
  | cons u us ih =>
    rcases List.mem_cons.mp hx with rfl | hx
    · simp [update, hg]
    · exact ih (by simpa using hg) hx

theorem or_default_ne_nil {s fallback : Str} (h : fallback ≠ []) : or_default s fallback ≠ [] := by
  unfold or_default
  split <;> assumption

theorem markers_ne_nil : (reasoning_stop_markers rc).2 ≠ [] := by
  have hdefault : "</think>".toList ≠ [] := by decide
  cases rc with
  | none => exact hdefault
  | some rc => exact or_default_ne_nil hdefault

theorem from_new_request_eq : from_new_request env rc tokenizer prompt_token_ids stop =
    { stop := stop, reasoning_stop_guard := true, reasoning_end_str := (reasoning_stop_markers rc).2 } ∨
      from_new_request env rc tokenizer prompt_token_ids stop = { stop := stop } := by
  unfold from_new_request maybe_enable_reasoning_stop_guard
  dsimp only
  split
  · split
    · split
      · exact .inl rfl
      · exact .inr rfl
    · exact .inr rfl
  · exact .inr rfl

/-- **Stops wait for the answer.** A request that reasons never looks for stop strings before the end of
its reasoning, however that arrives; where all new text is checked it resumes right behind it. Any
other request is checked as ever. To look is to hand `check_stop_strings` an offset, the third of an update. -/
theorem stops_wait (hl : Late [] us) (hx : x ∈ updates (from_new_request env rc tokenizer prompt_token_ids stop) us) :
    ((from_new_request env rc tokenizer prompt_token_ids stop).reasoning_stop_guard = true →
      (∀ offset, x.2.2 = some offset →
        ∃ n, Stops.find x.1.reasoning_end_str x.1.output_text = some n ∧ n + x.1.reasoning_end_str.length ≤ offset) ∧
      (Prompt [] us → Resumed x)) ∧
    ((from_new_request env rc tokenizer prompt_token_ids stop).reasoning_stop_guard = false →
      x.2.2 = if !x.1.stop.isEmpty && x.2.1.past_min_tokens then some x.2.1.stop_check_offset else none) := by
  refine ⟨fun hg => ?_, fun hg => updates_unarmed hg hx⟩
  rcases @from_new_request_eq env rc tokenizer prompt_token_ids stop with hd | hd
  · rw [hd] at hx
    have harmed : Armed { stop := stop, reasoning_stop_guard := true, reasoning_end_str := (reasoning_stop_markers rc).2 } :=
      ⟨rfl, markers_ne_nil, fun h => by cases h⟩
    refine ⟨fun offset hlook => updates_late harmed hl hx hlook, fun hp => updates_prompt harmed ?_ hp hx⟩
    intro hin
    exact absurd (List.eq_nil_of_infix_nil hin) markers_ne_nil
  · rw [hd] at hg
    cases hg

/-! A marker in two parts, and a stop string in the piece that ends it. -/

def tokenizer_of_think : Tokenizer := ⟨some fun s => if s = "<think>".toList then some 7 else none, none⟩

def in_two_parts : List Update := [⟨"So </thi".toList, 0, true⟩, ⟨"nk>Question:".toList, 8, true⟩]

def thinking : Detokenizer := from_new_request (fun _ => none) none tokenizer_of_think [1, 7] ["Question:".toList]

theorem stops_wait_two_parts : ∃ x ∈ updates thinking in_two_parts, x.2.2 = some 11 ∧
    ∃ n, Stops.find x.1.reasoning_end_str x.1.output_text = some n ∧ n + x.1.reasoning_end_str.length ≤ 11 := by
  have hx : _ ∈ updates thinking in_two_parts := List.mem_cons_of_mem _ List.mem_cons_self
  have hlook : (update (update thinking ⟨"So </thi".toList, 0, true⟩).1 ⟨"nk>Question:".toList, 8, true⟩).2 = some 11 := by decide
  have hl : Late [] in_two_parts := ⟨by decide, by decide, trivial⟩
  exact ⟨_, hx, hlook, ((stops_wait hl hx).1 (by decide)).1 11 hlook⟩

end

end AiroAgent.ReasoningStops
