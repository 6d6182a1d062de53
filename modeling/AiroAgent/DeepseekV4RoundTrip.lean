import AiroAgent.DeepseekV4Parse

/-!
# Completions read back

An assistant message as the encoding writes it, and what the parser makes of
it: the same message, its arguments as JSON text, unless a token of the format
stands in it.
-/

namespace AiroAgent.DeepseekV4

/-! ## What is written -/

def args_of (py : Python) (l : List (String × Val)) : ToolArgs :=
  l.map fun kv => (kv.1.toList, value_text py kv.2, is_str kv.2)

def call_args (py : Python) (tc : ToolCall) : Option (Str × ToolArgs) :=
  (arguments_of py tc.arguments).map fun l => (tc.name, args_of py l)

section
variable {py : Python} {l : List (String × Val)} {rest t name : Str} {tc : ToolCall} {calls : List ToolCall}

theorem render_arguments : ['\n'].intercalate (l.map (parameter py)) ++ '\n' :: (invoke_end ++ rest) =
    gap (args_of py l) ++ (stop_of (args_of py l) ++ args_text rest (args_of py l)) := by
  induction l with
  | nil => simp [args_of, gap, stop_of, args_text]
  | cons kv l ih =>
    cases l with
    | nil => simp [args_of, gap, stop_of, args_text, parameter]
    | cons kv' l =>
      rw [List.map_cons, List.map_cons, List.intercalate_cons_cons]
      rw [List.map_cons] at ih
      simp only [List.append_assoc] at ih ⊢
      rw [ih]
      simp [args_of, gap, stop_of, args_text, parameter]

theorem tool_call_text (h : tool_call py tc = some t) : ∃ args, call_args py tc = some (tc.name, args) ∧
    ∀ rest, t ++ '\n' :: rest = invoke_start ++ ((" name=\"".toList ++ (tc.name ++ ("\">\n".toList ++ gap args))) ++
      (stop_of args ++ args_text (['>', '\n'] ++ rest) args)) := by
  unfold tool_call encode_arguments_to_dsml at h
  simp only [Option.map_map, Option.map_eq_some_iff, Function.comp_apply] at h
  obtain ⟨l, hl, rfl⟩ := h
  refine ⟨args_of py l, by simp [call_args, hl], fun rest => ?_⟩
  have hargs : ['\n'].intercalate (l.map (parameter py)) ++ '\n' :: (invoke_end ++ (['>', '\n'] ++ rest)) = _ :=
    render_arguments
  simp only [List.append_assoc, List.cons_append, List.nil_append] at hargs ⊢
  rw [hargs]

theorem calls_body_text {ts : List Str} (hne : calls ≠ []) (h : calls.mapM (tool_call py) = some ts) :
    ∃ cs, calls.mapM (call_args py) = some cs ∧
      ∀ rest, ['\n'].intercalate ts ++ '\n' :: (tool_calls_end_token ++ rest) = calls_body rest cs := by
  induction calls generalizing ts with
  | nil => exact absurd rfl hne
  | cons tc calls ih =>
    simp only [List.mapM_cons, Option.pure_def, Option.bind_eq_bind, Option.bind_eq_some_iff, Option.some.injEq] at h
    obtain ⟨t, ht, ts, hts, rfl⟩ := h
    obtain ⟨args, hargs, htext⟩ := tool_call_text ht
    cases calls with
    | nil =>
      cases hts
      refine ⟨[(tc.name, args)], by simp [hargs], fun rest => ?_⟩
      show ['\n'].intercalate [t] ++ '\n' :: (tool_calls_end_token ++ rest) = _
      rw [List.intercalate_singleton, htext, calls_body, calls_body]
    | cons tc' calls =>
      obtain ⟨cs, hcs, hbody⟩ := ih (by simp) hts
      refine ⟨(tc.name, args) :: cs, by simp [hargs, hcs], fun rest => ?_⟩
      have hts' : ts ≠ [] := by
        rintro rfl
        simp [List.mapM_cons, Option.bind_eq_some_iff] at hts
      rw [List.intercalate_cons_of_ne_nil hts', calls_body, ← hbody, List.append_assoc, List.append_assoc]
      exact htext _

theorem mapM_tool_call : (calls.mapM (tool_call py)).isSome = (calls.mapM (call_args py)).isSome := by
  induction calls with
  | nil => rfl
  | cons tc calls ih =>
    have hhead : (tool_call py tc).isSome = (call_args py tc).isSome := by
      simp [tool_call, encode_arguments_to_dsml, call_args]
    cases ht : tool_call py tc <;> cases ha : call_args py tc <;> cases hts : calls.mapM (tool_call py) <;>
      cases has : calls.mapM (call_args py) <;> simp_all [List.mapM_cons]

theorem json_of_value (v : Val) : (if is_str v then json_str (value_text py v) else value_text py v) = to_json py v := by
  cases v with
  | str s =>
    rw [to_json]
    rfl
  | _ => rfl

/-- The arguments come back as the JSON text of the object they were. -/
theorem decode_args_of : decode_dsml_to_arguments name (args_of py l) = ⟨name, to_json py (.map l)⟩ := by
  have hpairs : ∀ l, (args_of py l).map (fun arg =>
      json_str arg.1 ++ ": ".toList ++ if arg.2.2 then json_str arg.2.1 else arg.2.1) = to_json_pairs py l := by
    intro l
    induction l with
    | nil => rw [to_json_pairs]; rfl
    | cons kv l ih =>
      obtain ⟨k, v⟩ := kv
      rw [to_json_pairs, ← ih, args_of, List.map_cons, List.map_cons, ← args_of]
      simp only [json_of_value]
  rw [to_json, ← hpairs]
  rfl

end

/-! ## The round trip -/

/-- What the model has to say for the message, from where the prompt hands over to it. -/
def completion (py : Python) (msg : Message) (thinking_mode : ThinkingMode) : Option Str :=
  render_assistant py msg (match thinking_mode with
    | .thinking => msg.reasoning_content ++ thinking_end_token
    | .chat => [])

/-- The message as the engine gives it on: its arguments are JSON texts, and without thinking there is no reasoning. -/
def read_back (py : Python) (msg : Message) (thinking_mode : ThinkingMode) : Option Completion :=
  (msg.tool_calls.mapM fun tc =>
    (arguments_of py tc.arguments).map fun l => (⟨tc.name, to_json py (.map l)⟩ : ParsedCall)).map fun calls =>
      { content := content_or_empty py msg.content
        reasoning_content := match thinking_mode with
          | .thinking => msg.reasoning_content
          | .chat => []
        tool_calls := calls }

/-- No token of the format stands in the message where the parser looks for one, and the
message is written with the end token, so that the parser finds it there. -/
structure Clean (py : Python) (msg : Message) : Prop where
  ended : msg.wo_eos = false
  content : ∀ token ∈ special_tokens, ¬ token <:+: content_or_empty py msg.content
  reasoning : ∀ token ∈ special_tokens, ¬ token <:+: msg.reasoning_content
  calls : ∀ tc ∈ msg.tool_calls, ∀ l, arguments_of py tc.arguments = some l → CleanCall tc.name (args_of py l)

section
variable {py : Python} {msg : Message} {thinking_mode : ThinkingMode} {s t rest text : Str} {m : Completion}

theorem check_special_tokens_iff : check_special_tokens s t = .ok () ↔
    ∀ token ∈ special_tokens, ¬ token <:+: s ∧ ¬ token <:+: t := by
  have hfind : check_special_tokens s t = .ok () ↔
      special_tokens.find? (fun token => decide (token <:+: s) || decide (token <:+: t)) = none := by
    unfold check_special_tokens
    cases special_tokens.find? (fun token => decide (token <:+: s) || decide (token <:+: t)) <;> simp
  rw [hfind, List.find?_eq_none]
  simp

theorem summary_stops : Stops.separated [eos_token, tool_calls_start_token] = true := by decide

theorem reasoning_stops : Stops.separated [thinking_end_token, tool_calls_start_token] = true := by decide

theorem dsml_in_start : dsml_token <:+: tool_calls_start_token := by decide

theorem free_of_start (h : ∀ token ∈ special_tokens, ¬ token <:+: s) : ¬ tool_calls_start_token <:+: s :=
  fun hin => h dsml_token (by simp [special_tokens]) (dsml_in_start.trans hin)

theorem parse_reasoning_text (hs : ∀ token ∈ special_tokens, ¬ token <:+: s) :
    parse_reasoning (s ++ (thinking_end_token ++ rest)) .thinking = .ok (s, rest) := by
  have hread : Stops.read_until_stop (s ++ (thinking_end_token ++ rest)) [thinking_end_token, tool_calls_start_token] =
      (s, some thinking_end_token, rest) := by
    apply Stops.read_append reasoning_stops List.mem_cons_self
    intro t ht
    rcases List.mem_cons.mp ht with rfl | ht
    · exact hs thinking_end_token (by simp [special_tokens])
    · obtain rfl := List.mem_singleton.mp ht
      exact free_of_start hs
  simp only [parse_reasoning, hread, if_true]

theorem read_summary {stop : Str} (hs : ∀ token ∈ special_tokens, ¬ token <:+: s)
    (hstop : stop ∈ [eos_token, tool_calls_start_token]) :
    Stops.read_until_stop (s ++ (stop ++ rest)) [eos_token, tool_calls_start_token] = (s, some stop, rest) := by
  apply Stops.read_append summary_stops hstop
  intro t ht
  rcases List.mem_cons.mp ht with rfl | ht
  · exact hs eos_token (by simp [special_tokens])
  · obtain rfl := List.mem_singleton.mp ht
    exact free_of_start hs

theorem read_back_calls {calls : List ToolCall} :
    calls.mapM (fun tc => (arguments_of py tc.arguments).map fun l => (⟨tc.name, to_json py (.map l)⟩ : ParsedCall)) =
      (calls.mapM (call_args py)).map (List.map fun call => decode_dsml_to_arguments call.1 call.2) := by
  induction calls with
  | nil => rfl
  | cons tc calls ih =>
    rw [List.mapM_cons, List.mapM_cons, ih]
    cases hl : arguments_of py tc.arguments with
    | none => simp [call_args, hl]
    | some l =>
      cases calls.mapM (call_args py) <;> simp [call_args, hl, decode_args_of]

theorem clean_calls {cs : List (Str × ToolArgs)} {calls : List ToolCall}
    (hc : ∀ tc ∈ calls, ∀ l, arguments_of py tc.arguments = some l → CleanCall tc.name (args_of py l))
    (h : calls.mapM (call_args py) = some cs) : ∀ call ∈ cs, CleanCall call.1 call.2 := by
  induction calls generalizing cs with
  | nil =>
    cases h
    simp
  | cons tc calls ih =>
    simp only [List.mapM_cons, Option.pure_def, Option.bind_eq_bind, Option.bind_eq_some_iff, Option.some.injEq] at h
    obtain ⟨call, hcall, cs, hcs, rfl⟩ := h
    obtain ⟨l, hl, rfl⟩ := Option.map_eq_some_iff.mp hcall
    rw [List.forall_mem_cons] at hc ⊢
    exact ⟨hc.1 l hl, ih hc.2 hcs⟩

/-- What is parsed behind the reasoning: the content, then the calls, if there are any. -/
theorem parse_summary (hr : parse_reasoning text thinking_mode = .ok (t, s ++ rest))
    (hs : ∀ token ∈ special_tokens, ¬ token <:+: s) (ht : ∀ token ∈ special_tokens, ¬ token <:+: t)
    {cs : List (Str × ToolArgs)} (hc : ∀ call ∈ cs, CleanCall call.1 call.2)
    (hrest : rest = eos_token ∧ cs = [] ∨ rest = tool_calls_start_token ++ calls_text eos_token cs) :
    parse_message_from_completion_text text thinking_mode =
      .ok { content := s, reasoning_content := t, tool_calls := cs.map fun call => decode_dsml_to_arguments call.1 call.2 } := by
  have hne : eos_token ≠ tool_calls_start_token := by decide
  have hcheck : check_special_tokens s t = .ok () := check_special_tokens_iff.mpr fun token hin => ⟨hs token hin, ht token hin⟩
  rcases hrest with ⟨rfl, rfl⟩ | rfl
  · have hread : Stops.read_until_stop (s ++ eos_token) [eos_token, tool_calls_start_token] = (s, some eos_token, []) := by
      have hstop : eos_token ∈ [eos_token, tool_calls_start_token] := List.mem_cons_self
      have hread : Stops.read_until_stop (s ++ (eos_token ++ [])) [eos_token, tool_calls_start_token] = (s, some eos_token, []) :=
        read_summary hs hstop
      rwa [List.append_nil] at hread
    simp only [parse_message_from_completion_text, parse_ending, hr, bind, Except.bind, hread, Option.some.injEq, if_neg hne,
      if_true, true_or, and_self, hcheck, pure, Except.pure, List.map_nil]
  · have hread : Stops.read_until_stop (s ++ (tool_calls_start_token ++ calls_text eos_token cs))
        [eos_token, tool_calls_start_token] = (s, some tool_calls_start_token, calls_text eos_token cs) :=
      read_summary hs (by simp)
    have hend : Stops.read_until_stop eos_token [eos_token] = ([], some eos_token, []) := by decide
    simp only [parse_message_from_completion_text, parse_ending, hr, bind, Except.bind, hread, if_true,
      parse_tool_calls_text hc, hend, true_or, and_self, hcheck, pure, Except.pure, List.nil_append]

theorem render_assistant_eq (hw : msg.wo_eos = false) :
    (msg.tool_calls.mapM (call_args py) = none ∧ render_assistant py msg t = none) ∨
      ∃ cs rest, msg.tool_calls.mapM (call_args py) = some cs ∧
        render_assistant py msg t = some (t ++ (content_or_empty py msg.content ++ rest)) ∧
        (rest = eos_token ∧ cs = [] ∨ rest = tool_calls_start_token ++ calls_text eos_token cs) := by
  unfold render_assistant
  by_cases hnil : msg.tool_calls = []
  · refine .inr ⟨[], eos_token, by rw [hnil]; rfl, ?_, .inl ⟨rfl, rfl⟩⟩
    simp [hnil, hw]
  · have hsome : (msg.tool_calls.mapM (tool_call py)).isSome = _ := mapM_tool_call
    cases hts : msg.tool_calls.mapM (tool_call py) with
    | none =>
      rw [hts] at hsome
      refine .inl ⟨by simpa using hsome.symm, ?_⟩
      simp [hnil, tool_calls, hts]
    | some ts =>
      obtain ⟨cs, hcs, hbody⟩ := calls_body_text hnil hts
      refine .inr ⟨cs, _, hcs, ?_, .inr rfl⟩
      have h₁ : ">\n".toList = ['>', '\n'] := by decide
      simp [hnil, tool_calls, hts, hw, calls_text, ← hbody, h₁]

/-- **The round trip.** What the encoding writes for a clean message is read back as that
message; arguments in the JSON text of something other than an object can be neither
written nor read. -/
theorem completion_round_trip (hc : Clean py msg) :
    (completion py msg thinking_mode).map (parse_message_from_completion_text · thinking_mode) =
      (read_back py msg thinking_mode).map Except.ok := by
  unfold completion read_back
  rcases render_assistant_eq (t := match thinking_mode with
    | .thinking => msg.reasoning_content ++ thinking_end_token
    | .chat => []) hc.ended with ⟨hcs, hr⟩ | ⟨cs, rest, hcs, hr, hrest⟩
  · rw [hr, read_back_calls, hcs]
    rfl
  · rw [hr, read_back_calls, hcs]
    simp only [Option.map_some, Option.some.injEq]
    cases thinking_mode with
    | thinking =>
      apply parse_summary _ hc.content hc.reasoning (clean_calls hc.calls hcs) hrest
      rw [List.append_assoc]
      exact parse_reasoning_text hc.reasoning
    | chat =>
      apply parse_summary rfl hc.content _ (clean_calls hc.calls hcs) hrest
      intro token hin hx
      have hne : ∀ token ∈ special_tokens, token ≠ [] := by decide
      exact hne token hin (List.eq_nil_of_infix_nil hx)

/-! A call with a string and a number. -/

def python : Python where
  loads := fun _ => none
  float_repr := fun _ _ => []
  repr := fun _ => []

def weather : Message where
  role := .assistant
  content := some (.text "One moment.".toList)
  reasoning_content := "They ask for the weather.".toList
  tool_calls := [{ name := "get_weather".toList, arguments := .map [("city", .str "Oslo"), ("days", .int 2)] }]

theorem weather_clean : Clean python weather := by
  refine ⟨rfl, by decide, by decide +kernel, ?_⟩
  intro tc htc l hl
  obtain rfl := List.mem_singleton.mp htc
  cases hl
  refine ⟨by decide, by decide +kernel, ?_, by decide +kernel⟩
  intro arg harg
  rcases List.mem_cons.mp harg with rfl | harg
  · exact ⟨by decide, by decide +kernel, by decide +kernel, by decide +kernel⟩
  · obtain rfl := List.mem_singleton.mp harg
    exact ⟨by decide, by decide +kernel, by decide +kernel, by decide +kernel⟩

theorem completion_round_trip_weather :
    (completion python weather .thinking).map (parse_message_from_completion_text · .thinking) =
      (read_back python weather .thinking).map Except.ok := completion_round_trip weather_clean

end

end AiroAgent.DeepseekV4
