import AiroAgent.DeepseekV4RoundTrip

/-!
# Completions that are accepted

Whatever text the parser accepts, what it takes from it keeps clear of the
tokens: a name or a value cannot bring one into the conversation.
-/

namespace AiroAgent.DeepseekV4

section
variable {text content name k value s rest : Str} {b : Bool} {acc : ToolArgs} {thinking_mode : ThinkingMode} {m : Completion}

theorem after_some (h : after s text = some rest) : text = s ++ rest := by
  unfold after at h
  split at h
  · rename_i hp
    obtain ⟨t, rfl⟩ := List.isPrefixOf_iff_prefix.mp hp
    cases h
    rw [List.drop_left]
  · cases h

theorem match_tool_name_sound (h : match_tool_name content = some name) : name <:+: content := by
  unfold match_tool_name at h
  obtain ⟨t, ht, h⟩ := Option.bind_eq_some_iff.mp h
  obtain ⟨⟨n, u⟩, hlazy, rfl⟩ := Option.map_eq_some_iff.mp h
  obtain ⟨rest, rfl, -⟩ := Stops.lazy_some hlazy
  have hdrop := after_some ht
  have hsuffix : content.dropWhile is_space <:+ content := List.dropWhile_suffix _
  rw [hdrop] at hsuffix
  exact (List.infix_append' _ n rest).trans hsuffix.isInfix

theorem match_value_sound (h : match_value s = some value) : s = value ++ ['<'] ∨ s = value ++ ['<', '\n'] := by
  obtain ⟨⟨v, u⟩, hlazy, rfl⟩ := Option.map_eq_some_iff.mp h
  obtain ⟨rest, rfl, hend, -⟩ := Stops.lazy_some hlazy
  unfold ends at hend
  split at hend
  · rename_i hx
    exact hx.imp (congrArg _) (congrArg _)
  · cases hend

theorem match_value_behind (h : match_value s = some value) (t : Str) : ∃ v, match_value (t ++ s) = some v := by
  apply Option.isSome_iff_exists.mp
  unfold match_value
  rw [Option.isSome_map]
  rcases match_value_sound h with rfl | rfl
  · rw [← List.append_assoc]
    exact Stops.lazy_isSome (by decide)
  · rw [← List.append_assoc]
    exact Stops.lazy_isSome (by decide)

theorem match_flag_sound (h : match_flag s = some (value, b)) :
    ∃ v, s = (if b then pattern_true else pattern_false) ++ v ∧ match_value v = some value := by
  unfold match_flag at h
  split at h
  · rename_i v hv
    obtain ⟨w, hw, he⟩ := Option.map_eq_some_iff.mp h
    cases he
    exact ⟨v, after_some hv, hw⟩
  · obtain ⟨v, hv, h⟩ := Option.bind_eq_some_iff.mp h
    obtain ⟨w, hw, he⟩ := Option.map_eq_some_iff.mp h
    cases he
    exact ⟨v, after_some hv, hw⟩

theorem match_parameter_sound (h : match_parameter content = some (k, value, b)) :
    k <:+: content ∧ value <:+: content ∧ ¬ pattern_true <:+: k ∧ ¬ pattern_false <:+: k := by
  unfold match_parameter at h
  obtain ⟨t, ht, hlazy⟩ := Option.bind_eq_some_iff.mp h
  obtain ⟨rest, rfl, hrest, hearly⟩ := Stops.lazy_some hlazy
  obtain ⟨v, rfl, hv⟩ := match_flag_sound hrest
  have hcontent := after_some ht
  -- an earlier pattern would have ended the name
  have hfree : ∀ b' : Bool, ¬ (if b' then pattern_true else pattern_false) <:+: k := by
    rintro b' ⟨u, w, rfl⟩
    have hpattern : (if b' then pattern_true else pattern_false) ≠ [] := by cases b' <;> decide
    have hnone := hearly u _ (List.append_assoc _ _ _) (List.append_ne_nil_of_left_ne_nil hpattern w)
    rw [List.append_assoc, match_flag_some] at hnone
    obtain ⟨v', hv'⟩ := match_value_behind hv (w ++ if b then pattern_true else pattern_false)
    rw [List.append_assoc] at hv'
    rw [hv'] at hnone
    cases hnone
  have hvalue : value <:+: v := by
    rcases match_value_sound hv with rfl | rfl
    · exact List.infix_append_left
    · exact List.infix_append_left
  refine ⟨?_, ?_, hfree true, hfree false⟩
  · rw [hcontent]
    exact List.infix_append' _ k _
  · rw [hcontent]
    refine hvalue.trans ⟨" name=\"".toList ++ (k ++ if b then pattern_true else pattern_false), [], ?_⟩
    simp only [List.append_assoc, List.append_nil]

theorem ends_ne_nil : ∀ t ∈ [parameter_start, invoke_end], t ≠ [] := by decide

theorem parse_parameter_sound {r : ToolArgs × Option Str × Str} (h : parse_parameter text acc = .ok r) :
    ∃ arg, r.1 = acc ++ [arg] ∧ CleanArg arg ∧ arg.1 ∉ acc.map Prod.fst := by
  have hfree : ¬ parameter_end <:+: (Stops.read_until_stop text [parameter_end]).1 :=
    Stops.read_free (by decide) List.mem_cons_self
  unfold parse_parameter at h
  simp only at h
  split at h
  · cases h
  · rename_i k value b hm
    split at h
    · cases h
    · rename_i hk
      split at h
      · cases h
        obtain ⟨hkey, hvalue, htrue, hfalse⟩ := match_parameter_sound hm
        exact ⟨(k, value, b), rfl, ⟨fun hin => hfree (hin.trans hkey), htrue, hfalse, fun hin => hfree (hin.trans hvalue)⟩, hk⟩
      · cases h

theorem parse_parameters_sound {stop : Option Str} {r : ToolArgs × Option Str × Str}
    (h : parse_parameters text stop acc = .ok r) (hc : ∀ arg ∈ acc, CleanArg arg) (hk : (acc.map Prod.fst).Nodup) :
    (∀ arg ∈ r.1, CleanArg arg) ∧ (r.1.map Prod.fst).Nodup := by
  fun_induction parse_parameters text stop acc with
  | case1 => cases h
  | case2 text acc r' hp ih =>
    obtain ⟨arg, harg, hclean, hnew⟩ := parse_parameter_sound hp
    rw [harg] at ih h
    apply ih h
    · intro x hx
      rcases List.mem_append.mp hx with hx | hx
      · exact hc x hx
      · rw [List.mem_singleton.mp hx]
        exact hclean
    · rw [List.map_append, List.nodup_append']
      refine ⟨hk, by simp, ?_⟩
      intro x hx hy
      obtain rfl := List.mem_singleton.mp hy
      exact hnew hx
  | case3 =>
    cases h
    exact ⟨hc, hk⟩

theorem parse_tool_call_sound {call : ParsedCall} {stop : Option Str} (h : parse_tool_call text = .ok (some call, stop, rest)) :
    ∃ name args, call = decode_dsml_to_arguments name args ∧ CleanCall name args := by
  unfold parse_tool_call at h
  simp only at h
  split at h
  · split at h
    · cases h
    · split at h
      · cases h
      · split at h
        · cases h
        · rename_i name hname
          split at h
          · cases h
          · rename_i r hp
            cases h
            have hin := match_tool_name_sound hname
            have hargs := parse_parameters_sound hp (by simp) (by simp)
            refine ⟨name, r.1, rfl, ?_, ?_, hargs.1, hargs.2⟩
            · exact fun hx => Stops.read_free ends_ne_nil (by simp) (hx.trans hin)
            · exact fun hx => Stops.read_free ends_ne_nil (by simp) (hx.trans hin)
  · cases h

def CleanCalls (calls : List ParsedCall) : Prop := ∃ cs : List (Str × ToolArgs),
  calls = cs.map (fun call => decode_dsml_to_arguments call.1 call.2) ∧ ∀ call ∈ cs, CleanCall call.1 call.2

theorem parse_tool_calls_sound {calls : List ParsedCall} {stop : Option Str} {r : Str × Option Str × List ParsedCall}
    (h : parse_tool_calls text stop calls = .ok r) (hc : CleanCalls calls) : CleanCalls r.2.2 := by
  fun_induction parse_tool_calls text stop calls with
  | case1 =>
    cases h
    exact hc
  | case2 => cases h
  | case3 =>
    cases h
    exact hc
  | case4 text stop calls hne call stop' rest hcall ih =>
    apply ih h
    obtain ⟨name, args, rfl, hclean⟩ := parse_tool_call_sound hcall
    obtain ⟨cs, rfl, hcs⟩ := hc
    refine ⟨cs ++ [(name, args)], by simp, ?_⟩
    intro x hx
    rcases List.mem_append.mp hx with hx | hx
    · exact hcs x hx
    · rw [List.mem_singleton.mp hx]
      exact hclean

theorem of_bind_ok {ε α β : Type} {x : Except ε α} {f : α → Except ε β} {y : β} (h : x.bind f = .ok y) :
    ∃ a, x = .ok a ∧ f a = .ok y := by
  cases x with
  | error e => cases h
  | ok a => exact ⟨a, rfl, h⟩

/-- **What is accepted is clean.** A completion that is parsed has no special token in its content or its
reasoning, and its calls are those of clean names and parameters, no parameter twice. -/
theorem accepted_clean (h : parse_message_from_completion_text text thinking_mode = .ok m) :
    (∀ token ∈ special_tokens, ¬ token <:+: m.content ∧ ¬ token <:+: m.reasoning_content) ∧ CleanCalls m.tool_calls := by
  unfold parse_message_from_completion_text at h
  obtain ⟨⟨reasoning_content, rest⟩, hr, h⟩ := of_bind_ok h
  obtain ⟨⟨tool_calls, stop_token, rest'⟩, hcalls, h⟩ := of_bind_ok h
  simp only at hcalls h
  have hclean : CleanCalls tool_calls := by
    unfold parse_ending at hcalls
    split at hcalls
    · obtain ⟨r, hp, hcalls⟩ := of_bind_ok hcalls
      have hsound := parse_tool_calls_sound hp ⟨[], rfl, by simp⟩
      simp only at hcalls
      split at hcalls
      · obtain ⟨rfl, -⟩ := Prod.mk.inj (Except.ok.inj hcalls)
        exact hsound
      · cases hcalls
    · split at hcalls
      · obtain ⟨rfl, -⟩ := Prod.mk.inj (Except.ok.inj hcalls)
        exact ⟨[], rfl, by simp⟩
      · cases hcalls
  split at h
  · obtain ⟨u, hcheck, h⟩ := of_bind_ok h
    cases h
    exact ⟨check_special_tokens_iff.mp hcheck, hclean⟩
  · cases h

theorem accepted_clean_weather : ∃ text m,
    parse_message_from_completion_text text .thinking = .ok m ∧ m.tool_calls.length = 1 ∧
    (∀ token ∈ special_tokens, ¬ token <:+: m.content ∧ ¬ token <:+: m.reasoning_content) ∧ CleanCalls m.tool_calls := by
  have hargs : weather.tool_calls.mapM (call_args python) = some [("get_weather".toList,
      args_of python [("city", .str "Oslo"), ("days", .int 2)])] := rfl
  have hparse := parse_summary (parse_reasoning_text weather_clean.reasoning) weather_clean.content weather_clean.reasoning
    (clean_calls weather_clean.calls hargs) (.inr rfl)
  exact ⟨_, _, hparse, rfl, accepted_clean hparse⟩

end

end AiroAgent.DeepseekV4
