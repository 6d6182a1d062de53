import AiroAgent.DeepseekV4
import AiroAgent.Lib.Text

/-!
# Reading a completion

The parser of the overlay. It reads up to the next of several tokens, each time
as far as the first of them, and matches what stands between; so it reads back
what was written when none of the tokens stands where it does not belong.
-/

namespace AiroAgent.DeepseekV4

/-! ## The parser -/

inductive ParseError where
  | tool_call_format (got : Str)
  | missing_special_token
  | tool_name_format (content : Str)
  | parameter_format (content : Str)
  | duplicate_parameter (name : Str)
  | parameter_end_format (got : Str)
  | invalid_thinking
  | missing_eos
  | content_after_tool_calls
  | content_at_end
  | special_token (token : Str)
  deriving DecidableEq

structure ParsedCall where
  name : Str
  arguments : Str
  deriving DecidableEq

/-- The parameters of a call in their order, each with its value and its `string` flag. -/
abbrev ToolArgs := List (Str × Str × Bool)

def decode_dsml_to_arguments (tool_name : Str) (tool_args : ToolArgs) : ParsedCall where
  name := tool_name
  arguments := '\x7b' :: (", ".toList.intercalate (tool_args.map fun (k, value, string) =>
    json_str k ++ ": ".toList ++ if string then json_str value else value) ++ ['\x7d'])

/-- `str.isspace`. -/
def is_space (c : Char) : Bool := Text.is_space c || (0x1c ≤ c.toNat && c.toNat ≤ 0x1f)

def after (start s : Str) : Option Str := if start.isPrefixOf s then some (s.drop start.length) else none

/-- Nothing but `e` is left; `$` also matches before a line break at the end. -/
def ends (e r : Str) : Option Unit := if r = e ∨ r = e ++ ['\n'] then some () else none

/-- `^\s*name="(.*?)">\n$` -/
def match_tool_name (content : Str) : Option Str :=
  (after "name=\"".toList (content.dropWhile is_space)).bind fun t =>
    (Stops.lazy (ends "\">\n".toList) t).map Prod.fst

def match_value (s : Str) : Option Str := (Stops.lazy (ends ['<']) s).map Prod.fst

def match_flag (s : Str) : Option (Str × Bool) :=
  match after "\" string=\"true\">".toList s with
  | some v => (match_value v).map fun value => (value, true)
  | none => (after "\" string=\"false\">".toList s).bind fun v => (match_value v).map fun value => (value, false)

/-- `^ name="(.*?)" string="(true|false)">(.*?)<$` -/
def match_parameter (content : Str) : Option (Str × Str × Bool) :=
  (after " name=\"".toList content).bind (Stops.lazy match_flag)

theorem read_lt {text c : Str} {stops : List Str} (hc : (Stops.read_until_stop text stops).1 = c) (hne : c ≠ []) :
    (Stops.read_until_stop text stops).2.2.length < text.length := by
  have hlen := Stops.read_length text stops
  have hpos := List.length_pos_iff.mpr hne
  rw [hc] at hlen
  omega

theorem read_le (text : Str) (stops : List Str) : (Stops.read_until_stop text stops).2.2.length ≤ text.length := by
  have hlen := Stops.read_length text stops
  omega

/-- One parameter, from behind its `<｜DSML｜parameter`: the parameters with it, and what was read behind it. -/
def parse_parameter (text : Str) (tool_args : ToolArgs) : Except ParseError (ToolArgs × Option Str × Str) :=
  let param := Stops.read_until_stop text [parameter_end]
  match match_parameter param.1 with
  | none => .error (.parameter_format param.1)
  | some (param_name, value, string) =>
    if param_name ∈ tool_args.map Prod.fst then .error (.duplicate_parameter param_name)
    else
      let next := Stops.read_until_stop param.2.2 [parameter_start, invoke_end]
      if next.1 = ['>', '\n'] then .ok (tool_args ++ [(param_name, value, string)], next.2.1, next.2.2)
      else .error (.parameter_end_format next.1)

theorem parse_parameter_lt {text : Str} {tool_args : ToolArgs} {r : ToolArgs × Option Str × Str}
    (h : parse_parameter text tool_args = .ok r) : r.2.2.length < text.length := by
  unfold parse_parameter at h
  simp only at h
  split at h
  · cases h
  · split at h
    · cases h
    · split at h
      · rename_i hc
        cases h
        exact (read_lt hc (by simp)).trans_le (read_le text [parameter_end])
      · cases h

def parse_parameters (text : Str) (stop : Option Str) (tool_args : ToolArgs) :
    Except ParseError (ToolArgs × Option Str × Str) :=
  if stop = some parameter_start then
    match _h : parse_parameter text tool_args with
    | .error e => .error e
    | .ok r => parse_parameters r.2.2 r.2.1 r.1
  else .ok (tool_args, stop, text)
termination_by text.length
decreasing_by exact parse_parameter_lt _h

theorem parse_parameters_le {text : Str} {stop : Option Str} {tool_args : ToolArgs} {r : ToolArgs × Option Str × Str}
    (h : parse_parameters text stop tool_args = .ok r) : r.2.2.length ≤ text.length := by
  fun_induction parse_parameters text stop tool_args with
  | case1 => cases h
  | case2 text tool_args r' hp ih => exact (ih h).trans (parse_parameter_lt hp).le
  | case3 =>
    cases h
    exact le_refl _

/-- One turn of the loop over the calls: a call, or nothing at the token that ends them. -/
def parse_tool_call (text : Str) : Except ParseError (Option ParsedCall × Option Str × Str) :=
  let opening := Stops.read_until_stop text [invoke_start, tool_calls_end_token]
  if opening.1 = ['>', '\n'] then
    if opening.2.1 = some tool_calls_end_token then .ok (none, opening.2.1, opening.2.2)
    else if opening.2.1 = none then .error .missing_special_token
    else
      let name := Stops.read_until_stop opening.2.2 [parameter_start, invoke_end]
      match match_tool_name name.1 with
      | none => .error (.tool_name_format name.1)
      | some tool_name =>
        match parse_parameters name.2.2 name.2.1 [] with
        | .error e => .error e
        | .ok r => .ok (some (decode_dsml_to_arguments tool_name r.1), r.2.1, r.2.2)
  else .error (.tool_call_format opening.1)

theorem parse_tool_call_lt {text : Str} {r : Option ParsedCall × Option Str × Str} (h : parse_tool_call text = .ok r) :
    r.2.2.length < text.length := by
  unfold parse_tool_call at h
  simp only at h
  split at h
  · rename_i ho
    have hlt := read_lt ho (by simp)
    split at h
    · cases h
      exact hlt
    · split at h
      · cases h
      · split at h
        · cases h
        · split at h
          · cases h
          · rename_i r' hp
            cases h
            exact (parse_parameters_le hp).trans_lt ((read_le _ _).trans_lt hlt)
  · cases h

/-- The text behind the calls, the stop that was read last, and the calls. -/
def parse_tool_calls (text : Str) (stop : Option Str) (calls : List ParsedCall) :
    Except ParseError (Str × Option Str × List ParsedCall) :=
  if text = [] then .ok (text, stop, calls)
  else
    match _h : parse_tool_call text with
    | .error e => .error e
    | .ok (none, stop, rest) => .ok (rest, stop, calls)
    | .ok (some call, stop, rest) => parse_tool_calls rest stop (calls ++ [call])
termination_by text.length
decreasing_by exact parse_tool_call_lt _h

/-- An assistant message, its tool calls in the engine's own form. -/
structure Completion where
  content : Str
  reasoning_content : Str
  tool_calls : List ParsedCall
  deriving DecidableEq

def special_tokens : List Str := [bos_token, eos_token, thinking_start_token, thinking_end_token, dsml_token]

def check_special_tokens (summary_content reasoning_content : Str) : Except ParseError Unit :=
  match special_tokens.find? fun sp_token => sp_token <:+: summary_content || sp_token <:+: reasoning_content with
  | some sp_token => .error (.special_token sp_token)
  | none => .ok ()

def parse_reasoning (text : Str) : ThinkingMode → Except ParseError (Str × Str)
  | .thinking =>
    let read := Stops.read_until_stop text [thinking_end_token, tool_calls_start_token]
    if read.2.1 = some thinking_end_token then .ok (read.1, read.2.2) else .error .invalid_thinking
  | .chat => .ok ([], text)

/-- The calls, and the token that ends the text with what is left behind it. -/
def parse_ending (summary : Str × Option Str × Str) : Except ParseError (List ParsedCall × Option Str × Str) :=
  if summary.2.1 = some tool_calls_start_token then do
    let (text, _, tool_calls) ← parse_tool_calls summary.2.2 none []
    let tool_ends := Stops.read_until_stop text [eos_token]
    if tool_ends.1 = [] then .ok (tool_calls, tool_ends.2) else .error .content_after_tool_calls
  else if summary.2.1 = some eos_token then .ok ([], summary.2)
  else .error .missing_eos

def parse_message_from_completion_text (text : Str) (thinking_mode : ThinkingMode) : Except ParseError Completion := do
  let (reasoning_content, text) ← parse_reasoning text thinking_mode
  let summary := Stops.read_until_stop text [eos_token, tool_calls_start_token]
  let (tool_calls, stop_token, rest) ← parse_ending summary
  if rest = [] ∧ (stop_token = some eos_token ∨ stop_token = none) then do
    check_special_tokens summary.1 reasoning_content
    return { content := summary.1, reasoning_content, tool_calls }
  else .error .content_at_end

/-! ## Reading one parameter -/

def pattern_true : Str := "\" string=\"true\">".toList

def pattern_false : Str := "\" string=\"false\">".toList

/-- The name and the value keep clear of what the parser looks for. -/
structure CleanArg (arg : Str × Str × Bool) : Prop where
  key : ¬ parameter_end <:+: arg.1
  key_true : ¬ pattern_true <:+: arg.1
  key_false : ¬ pattern_false <:+: arg.1
  value : ¬ parameter_end <:+: arg.2.1

structure CleanCall (name : Str) (args : ToolArgs) : Prop where
  name_parameter : ¬ parameter_start <:+: name
  name_invoke : ¬ invoke_end <:+: name
  each : ∀ arg ∈ args, CleanArg arg
  keys : (args.map Prod.fst).Nodup

section
variable {s t e k value name rest text : Str} {b : Bool} {args acc : ToolArgs} {arg : Str × Str × Bool}

theorem after_append : after s (s ++ t) = some t := by
  unfold after
  rw [if_pos (List.isPrefixOf_iff_prefix.mpr (List.prefix_append s t)), List.drop_left]

theorem after_eq_none : after s t = none ↔ ¬ s <+: t := by
  unfold after
  rw [← List.isPrefixOf_iff_prefix]
  split <;> simp_all

theorem ends_self : ends e e = some () := by
  simp [ends]

theorem ends_append (hb : ∀ c : Char, c :: e ≠ e ++ ['\n']) (hs : s ≠ []) : ends e (s ++ e) = none := by
  unfold ends
  rw [if_neg]
  rintro (he | he)
  · exact hs (List.append_left_eq_self.mp he)
  · cases s with
    | nil => exact hs rfl
    | cons c s =>
      have hlen := congrArg List.length he
      simp only [List.length_append, List.length_cons, List.length_nil] at hlen
      obtain rfl : s = [] := List.length_eq_zero_iff.mp (by omega)
      exact hb c he

theorem match_value_append : match_value (value ++ ['<']) = some value := by
  have hlazy : Stops.lazy (ends ['<']) (value ++ ['<']) = some (value, ()) := by
    apply Stops.lazy_append ends_self
    intro c₁ c₂ _ hne
    exact ends_append (by simp) hne
  rw [match_value, hlazy]
  rfl

theorem match_flag_some : match_flag ((if b then pattern_true else pattern_false) ++ s) =
    (match_value s).map fun value => (value, b) := by
  cases b with
  | true =>
    have hafter : after pattern_true (pattern_true ++ s) = some s := after_append
    unfold match_flag
    unfold pattern_true at hafter ⊢
    rw [if_pos rfl, hafter]
  | false =>
    have hnone : after pattern_true (pattern_false ++ s) = none := by
      rw [after_eq_none]
      exact Stops.not_prefix_append (by decide)
    have hafter : after pattern_false (pattern_false ++ s) = some s := after_append
    unfold match_flag
    unfold pattern_true at hnone
    rw [if_neg Bool.false_ne_true, hnone]
    unfold pattern_false at hafter ⊢
    rw [hafter, Option.bind_some]

theorem match_flag_pattern : match_flag ((if b then pattern_true else pattern_false) ++ (value ++ ['<'])) = some (value, b) := by
  rw [match_flag_some, match_value_append, Option.map_some]

theorem match_flag_early (ht : ¬ pattern_true <:+: s) (hf : ¬ pattern_false <:+: s) (hne : s ≠ []) :
    match_flag (s ++ ((if b then pattern_true else pattern_false) ++ t)) = none := by
  have hsep : Stops.apart pattern_true pattern_true = true ∧ Stops.apart pattern_true pattern_false = true ∧
      Stops.apart pattern_false pattern_true = true ∧ Stops.apart pattern_false pattern_false = true := by decide
  have htrue : after "\" string=\"true\">".toList (s ++ ((if b then pattern_true else pattern_false) ++ t)) = none := by
    rw [after_eq_none]
    apply Stops.not_prefix_of_apart ht hne
    cases b
    · exact hsep.2.1
    · exact hsep.1
  have hfalse : after "\" string=\"false\">".toList (s ++ ((if b then pattern_true else pattern_false) ++ t)) = none := by
    rw [after_eq_none]
    apply Stops.not_prefix_of_apart hf hne
    cases b
    · exact hsep.2.2.2
    · exact hsep.2.2.1
  rw [match_flag, htrue, hfalse]
  rfl

theorem parameter_content_eq : parameter_content k b value =
    " name=\"".toList ++ (k ++ ((if b then pattern_true else pattern_false) ++ (value ++ ['<']))) := by
  have hflag : "\" string=\"".toList ++ flag b ++ "\">".toList = if b then pattern_true else pattern_false := by
    cases b <;> decide
  unfold parameter_content
  rw [← hflag]
  simp only [List.append_assoc]

theorem match_parameter_content (ht : ¬ pattern_true <:+: k) (hf : ¬ pattern_false <:+: k) :
    match_parameter (parameter_content k b value) = some (k, value, b) := by
  rw [parameter_content_eq, match_parameter, after_append, Option.bind_some]
  apply Stops.lazy_append match_flag_pattern
  intro c₁ c₂ hc hne
  subst hc
  exact match_flag_early (fun h => ht (h.trans List.infix_append_right)) (fun h => hf (h.trans List.infix_append_right)) hne

/-- A token without a quote cannot begin in the frame around a name and a value. -/
theorem parameter_content_free (hk : ¬ parameter_end <:+: k) (hv : ¬ parameter_end <:+: value) :
    ¬ parameter_end <:+: parameter_content k b value := by
  have hquote : '"' ∉ parameter_end := by decide
  have hgt : '>' ∉ parameter_end := by decide
  have hlt : '<' ∉ parameter_end := by decide
  have hframe : parameter_content k b value =
      " name=".toList ++ '"' :: (k ++ '"' :: (" string=".toList ++ '"' :: (flag b ++ '"' :: ([] ++ '>' :: (value ++ '<' :: []))))) := by
    have h₁ : " name=\"".toList = " name=".toList ++ ['"'] := by decide
    have h₂ : "\" string=\"".toList = '"' :: (" string=".toList ++ ['"']) := by decide
    have h₃ : "\">".toList = ['"', '>'] := by decide
    unfold parameter_content
    simp only [h₁, h₂, h₃, List.append_assoc, List.cons_append, List.nil_append]
  have hflag : ¬ parameter_end <:+: flag b := by cases b <;> decide
  have hname : ¬ parameter_end <:+: " name=".toList := by decide
  have hstring : ¬ parameter_end <:+: " string=".toList := by decide
  have hnil : ¬ parameter_end <:+: [] := by decide
  rw [hframe, Text.infix_append_cons hquote, Text.infix_append_cons hquote, Text.infix_append_cons hquote,
    Text.infix_append_cons hquote, Text.infix_append_cons hgt, Text.infix_append_cons hlt]
  simp only [hk, hv, hflag, hname, hstring, hnil, or_self, not_false_eq_true]

/-! ## Reading one call -/

theorem dropWhile_name : (" name=\"".toList ++ t).dropWhile is_space = "name=\"".toList ++ t := by
  have h₁ : " name=\"".toList = ' ' :: "name=\"".toList := by decide
  have h₂ : "name=\"".toList = 'n' :: "ame=\"".toList := by decide
  have hspace : is_space ' ' = true := by decide
  have hn : is_space 'n' = false := by decide
  rw [h₁, List.cons_append, List.dropWhile_cons_of_pos hspace, h₂, List.cons_append,
    List.dropWhile_cons_of_neg (by simp [hn])]

/-- What stands between the name of a call and its first parameter, or its end: without parameters one more line break. -/
def gap : ToolArgs → Str
  | [] => ['\n']
  | _ :: _ => []

theorem match_tool_name_content :
    match_tool_name (" name=\"".toList ++ (name ++ ("\">\n".toList ++ gap args))) = some name := by
  have he : "\">\n".toList = ['"', '>', '\n'] := by decide
  have hlazy : Stops.lazy (ends "\">\n".toList) (name ++ ("\">\n".toList ++ gap args)) = some (name, ()) := by
    rw [he]
    apply Stops.lazy_append
    · cases args <;> simp [ends, gap]
    · intro c₁ c₂ _ hne
      cases args with
      | nil =>
        unfold ends
        rw [if_neg]
        rintro (hx | hx)
        · have hlen := congrArg List.length hx
          simp [gap] at hlen
        · exact hne (List.append_left_eq_self.mp hx)
      | cons arg args =>
        rw [gap, List.append_nil]
        exact ends_append (by simp) hne
  rw [match_tool_name, dropWhile_name, after_append, Option.bind_some, hlazy]
  rfl

theorem separated_ends : Stops.separated [parameter_start, invoke_end] = true := by decide

theorem break_free : ∀ t ∈ [parameter_start, invoke_end], ¬ t <:+: ['>', '\n'] := by decide

/-- What the parser meets behind the name of a call, or behind a parameter. -/
def stop_of : ToolArgs → Str
  | [] => invoke_end
  | _ :: _ => parameter_start

def args_text (rest : Str) : ToolArgs → Str
  | [] => rest
  | (k, value, b) :: args =>
    parameter_content k b value ++ (parameter_end ++ (['>', '\n'] ++ (stop_of args ++ args_text rest args)))

theorem stop_of_mem : stop_of args ∈ [parameter_start, invoke_end] := by
  cases args <;> simp [stop_of]

theorem parse_parameter_text (hc : CleanArg (k, value, b)) (hk : k ∉ acc.map Prod.fst) :
    parse_parameter (args_text rest ((k, value, b) :: args)) acc =
      .ok (acc ++ [(k, value, b)], some (stop_of args), args_text rest args) := by
  have hend : Stops.separated [parameter_end] = true := by decide
  have hparam : Stops.read_until_stop (args_text rest ((k, value, b) :: args)) [parameter_end] =
      (parameter_content k b value, some parameter_end, ['>', '\n'] ++ (stop_of args ++ args_text rest args)) := by
    apply Stops.read_append hend List.mem_cons_self
    intro t ht
    obtain rfl := List.mem_singleton.mp ht
    exact parameter_content_free hc.key hc.value
  have hnext : Stops.read_until_stop (['>', '\n'] ++ (stop_of args ++ args_text rest args)) [parameter_start, invoke_end] =
      (['>', '\n'], some (stop_of args), args_text rest args) := Stops.read_append separated_ends stop_of_mem break_free
  unfold parse_parameter
  simp only [hparam, match_parameter_content hc.key_true hc.key_false, hnext, if_neg hk, if_true]

/-- **The parameters of a call** are read back one by one, in their order. -/
theorem parse_parameters_text (hc : ∀ arg ∈ args, CleanArg arg) (hk : ((acc ++ args).map Prod.fst).Nodup) :
    parse_parameters (args_text rest args) (some (stop_of args)) acc = .ok (acc ++ args, some invoke_end, rest) := by
  induction args generalizing acc with
  | nil =>
    have hne : invoke_end ≠ parameter_start := by decide
    rw [parse_parameters, stop_of, if_neg (by simpa using hne), List.append_nil]
    rfl
  | cons arg args ih =>
    obtain ⟨k, value, b⟩ := arg
    rw [List.forall_mem_cons] at hc
    have hnew : k ∉ acc.map Prod.fst := by
      intro hin
      rw [List.map_append, List.nodup_append'] at hk
      exact hk.2.2 hin List.mem_cons_self
    have hsnoc : acc ++ (k, value, b) :: args = acc ++ [(k, value, b)] ++ args := by simp
    rw [hsnoc] at hk ⊢
    rw [parse_parameters, if_pos (by rfl), parse_parameter_text hc.1 hnew]
    exact ih hc.2 hk

theorem name_free (hc : CleanCall name args) : ∀ t ∈ [parameter_start, invoke_end],
    ¬ t <:+: " name=\"".toList ++ (name ++ ("\">\n".toList ++ gap args)) := by
  intro t ht
  have hquote : ∀ t ∈ [parameter_start, invoke_end], '"' ∉ t := by decide
  have hname : ∀ t ∈ [parameter_start, invoke_end], ¬ t <:+: " name=".toList := by decide
  have hbreak : ∀ t ∈ [parameter_start, invoke_end], ¬ t <:+: ['>', '\n'] ∧ ¬ t <:+: ['>', '\n', '\n'] := by
    decide
  have hframe : " name=\"".toList ++ (name ++ ("\">\n".toList ++ gap args)) =
      " name=".toList ++ '"' :: (name ++ '"' :: (['>', '\n'] ++ gap args)) := by
    have h₁ : " name=\"".toList = " name=".toList ++ ['"'] := by decide
    have h₂ : "\">\n".toList = ['"', '>', '\n'] := by decide
    simp only [h₁, h₂, List.append_assoc, List.cons_append, List.nil_append]
  have hgap : ¬ t <:+: ['>', '\n'] ++ gap args := by
    cases args with
    | nil => exact (hbreak t ht).2
    | cons => exact (hbreak t ht).1
  have hclean : ¬ t <:+: name := by
    rcases List.mem_cons.mp ht with rfl | ht
    · exact hc.name_parameter
    · obtain rfl := List.mem_singleton.mp ht
      exact hc.name_invoke
  rw [hframe, Text.infix_append_cons (hquote t ht), Text.infix_append_cons (hquote t ht)]
  simp only [hname t ht, hclean, hgap, or_self, not_false_eq_true]

def calls_body (rest : Str) : List (Str × ToolArgs) → Str
  | [] => tool_calls_end_token ++ rest
  | (name, args) :: calls =>
    invoke_start ++ ((" name=\"".toList ++ (name ++ ("\">\n".toList ++ gap args))) ++
      (stop_of args ++ args_text (['>', '\n'] ++ calls_body rest calls) args))

def calls_text (rest : Str) (calls : List (Str × ToolArgs)) : Str := ['>', '\n'] ++ calls_body rest calls

theorem separated_calls : Stops.separated [invoke_start, tool_calls_end_token] = true := by decide

theorem break_free_calls : ∀ t ∈ [invoke_start, tool_calls_end_token], ¬ t <:+: ['>', '\n'] := by decide

theorem parse_tool_call_text {calls : List (Str × ToolArgs)} (hc : CleanCall name args) :
    parse_tool_call (calls_text rest ((name, args) :: calls)) =
      .ok (some (decode_dsml_to_arguments name args), some invoke_end, calls_text rest calls) := by
  have hopening : Stops.read_until_stop (calls_text rest ((name, args) :: calls)) [invoke_start, tool_calls_end_token] =
      (['>', '\n'], some invoke_start, (" name=\"".toList ++ (name ++ ("\">\n".toList ++ gap args))) ++
        (stop_of args ++ args_text (calls_text rest calls) args)) :=
    Stops.read_append separated_calls List.mem_cons_self break_free_calls
  have hname : Stops.read_until_stop ((" name=\"".toList ++ (name ++ ("\">\n".toList ++ gap args))) ++
        (stop_of args ++ args_text (calls_text rest calls) args)) [parameter_start, invoke_end] =
      (" name=\"".toList ++ (name ++ ("\">\n".toList ++ gap args)), some (stop_of args),
        args_text (calls_text rest calls) args) :=
    Stops.read_append separated_ends stop_of_mem (name_free hc)
  have hparams : parse_parameters (args_text (calls_text rest calls) args) (some (stop_of args)) [] =
      .ok (args, some invoke_end, calls_text rest calls) := parse_parameters_text hc.each (by simpa using hc.keys)
  have hne : invoke_start ≠ tool_calls_end_token := by decide
  unfold parse_tool_call
  simp only [hopening, hname, match_tool_name_content, hparams, if_true, Option.some.injEq, if_neg hne, reduceCtorEq, if_false]

theorem parse_tool_call_end : parse_tool_call (calls_text rest []) = .ok (none, some tool_calls_end_token, rest) := by
  have hopening : Stops.read_until_stop (calls_text rest []) [invoke_start, tool_calls_end_token] =
      (['>', '\n'], some tool_calls_end_token, rest) :=
    Stops.read_append separated_calls (by simp) break_free_calls
  unfold parse_tool_call
  simp only [hopening, if_true]

theorem parse_tool_calls_text {calls : List (Str × ToolArgs)} {stop : Option Str} {before : List ParsedCall}
    (hc : ∀ call ∈ calls, CleanCall call.1 call.2) :
    parse_tool_calls (calls_text rest calls) stop before =
      .ok (rest, some tool_calls_end_token, before ++ calls.map fun call => decode_dsml_to_arguments call.1 call.2) := by
  induction calls generalizing stop before with
  | nil =>
    rw [parse_tool_calls, if_neg (by simp [calls_text]), parse_tool_call_end]
    simp
  | cons call calls ih =>
    obtain ⟨name, args⟩ := call
    rw [List.forall_mem_cons] at hc
    rw [parse_tool_calls, if_neg (by simp [calls_text]), parse_tool_call_text hc.1]
    simp only
    rw [ih hc.2]
    simp

end

end AiroAgent.DeepseekV4
