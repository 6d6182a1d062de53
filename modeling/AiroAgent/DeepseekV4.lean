import AiroAgent.Lib.Stops
import AiroAgent.Profile

/-!
# The DeepSeek-V4 encoding

The tokenizer overlay that a launch mounts with `encoding_file`: a conversation
becomes a prompt, and a completion becomes an assistant message again, with its
reasoning and its tool calls. Text is a list of characters. What raises has no
result; the parser says with which error.
-/

namespace AiroAgent.DeepseekV4

abbrev Str := List Char

/-! ## Tokens -/

def bos_token : Str := "<｜begin▁of▁sentence｜>".toList

def eos_token : Str := "<｜end▁of▁sentence｜>".toList

def thinking_start_token : Str := "<think>".toList

def thinking_end_token : Str := "</think>".toList

def dsml_token : Str := "｜DSML｜".toList

def user_sp_token : Str := "<｜User｜>".toList

def assistant_sp_token : Str := "<｜Assistant｜>".toList

def latest_reminder_sp_token : Str := "<｜latest_reminder｜>".toList

def ds_task_sp_tokens : List (String × Str) := [
  ("action", "<｜action｜>".toList),
  ("query", "<｜query｜>".toList),
  ("authority", "<｜authority｜>".toList),
  ("domain", "<｜domain｜>".toList),
  ("title", "<｜title｜>".toList),
  ("read_url", "<｜read_url｜>".toList)]

def reasoning_effort_prompts : List (String × Str) := [
  ("low", []),
  ("high", ("Reasoning Effort: Absolute maximum with no shortcuts permitted.\n" ++
    "You MUST be very thorough in your thinking and comprehensively decompose the problem to resolve the root cause, " ++
    "rigorously stress-testing your logic against all potential paths, edge cases, and adversarial scenarios.\n" ++
    "Explicitly write out your entire deliberation process, documenting every intermediate step, considered alternative, " ++
    "and rejected hypothesis to ensure absolutely no assumption is left unchecked.\n\n").toList),
  ("max", ("Reasoning Effort: Beyond maximum — exhaustive, relentless, and uncompromising.\n" ++
    "You MUST reason with the utmost depth and rigor, leaving absolutely nothing to chance: exhaustively decompose the " ++
    "problem into its most fundamental components, trace every causal chain to its root, and resolve the underlying " ++
    "cause rather than any surface symptom.\n" ++
    "Do not stop reasoning until you have independently verified the solution from multiple angles and are certain that " ++
    "no assumption remains unchecked and no error remains undiscovered.\n\n").toList)]

def tool_calls_block_name : Str := "tool_calls".toList

/-! ## JSON -/

structure Part where
  type : Option Str
  text : Str

/-- `json.loads/1`, and how floats and lists of parts are written. -/
structure Python where
  loads : Str → Option Val
  float_repr : Int → Int → Str
  repr : List Part → Str

def hex_digit (n : Nat) : Char := if n < 10 then Char.ofNat (48 + n) else Char.ofNat (87 + n)

def escape (c : Char) : Str :=
  match c with
  | '"' => ['\\', '"']
  | '\\' => ['\\', '\\']
  | '\n' => ['\\', 'n']
  | '\r' => ['\\', 'r']
  | '\t' => ['\\', 't']
  | '\x08' => ['\\', 'b']
  | '\x0c' => ['\\', 'f']
  | c => if c.toNat < 32 then ['\\', 'u', '0', '0', hex_digit (c.toNat / 16), hex_digit (c.toNat % 16)] else [c]

def json_str (s : Str) : Str := '"' :: (s.flatMap escape ++ ['"'])

mutual
/-- `json.dumps/2` without `ensure_ascii`. -/
def to_json (py : Python) : Val → Str
  | .nil => "null".toList
  | .bool b => if b then "true".toList else "false".toList
  | .int n => (toString n).toList
  | .float m e => py.float_repr m e
  | .str s => json_str s.toList
  | .list l => '[' :: (", ".toList.intercalate (to_json_items py l) ++ [']'])
  | .map l => '\x7b' :: (", ".toList.intercalate (to_json_pairs py l) ++ ['\x7d'])
def to_json_items (py : Python) : List Val → List Str
  | [] => []
  | v :: vs => to_json py v :: to_json_items py vs
def to_json_pairs (py : Python) : List (String × Val) → List Str
  | [] => []
  | (k, v) :: l => (json_str k.toList ++ ": ".toList ++ to_json py v) :: to_json_pairs py l
end

def truthy : Val → Bool
  | .nil => false
  | .bool b => b
  | .int n => n != 0
  | .float m _ => m != 0
  | .str s => s != ""
  | .list l => !l.isEmpty
  | .map l => !l.isEmpty

/-! ## Messages -/

inductive Role where
  | system
  | developer
  | user
  | latest_reminder
  | tool
  | assistant
  | direct_search_results
  | other (name : Str)
  deriving DecidableEq

inductive Content where
  | null
  | text (s : Str)
  | parts (l : List Part)

structure ToolCall where
  id : Str := []
  function_id : Str := []
  name : Str
  arguments : Val

inductive Block where
  | text (text : Content)
  | tool_result (tool_use_id : Str) (content : Content)
  | other (type : Option Str)

/-- A missing `content` is `none`; the other keys have their empty value when they are missing. -/
structure Message where
  role : Role
  content : Option Content := none
  tools : List Val := []
  response_format : Val := .nil
  tool_calls : List ToolCall := []
  reasoning_content : Str := []
  wo_eos : Bool := false
  content_blocks : Option (List Block) := none
  task : Option String := none
  tool_call_id : Str := []

inductive ThinkingMode where
  | chat
  | thinking
  deriving DecidableEq

/-! ## Tool calls as text -/

def invoke_start : Str := '<' :: (dsml_token ++ "invoke".toList)

def invoke_end : Str := '<' :: '/' :: (dsml_token ++ "invoke".toList)

def parameter_start : Str := '<' :: (dsml_token ++ "parameter".toList)

/-- Without the `<` before it, as the parser looks for it. -/
def parameter_end : Str := '/' :: (dsml_token ++ "parameter".toList)

def tool_calls_start_token : Str := '\n' :: '\n' :: '<' :: (dsml_token ++ tool_calls_block_name)

def tool_calls_end_token : Str := '<' :: '/' :: (dsml_token ++ tool_calls_block_name ++ ['>'])

/-- Arguments that are no JSON stay as one argument; a JSON text of another shape has no `items`. -/
def arguments_of (py : Python) : Val → Option (List (String × Val))
  | .map l => some l
  | .str s =>
    match py.loads s.toList with
    | some (.map l) => some l
    | some _ => none
    | none => some [("arguments", .str s)]
  | raw => some [("arguments", raw)]

def is_str : Val → Bool
  | .str _ => true
  | _ => false

def value_text (py : Python) : Val → Str
  | .str s => s.toList
  | v => to_json py v

def flag (b : Bool) : Str := if b then "true".toList else "false".toList

/-- What stands between `<｜DSML｜parameter` and its end. -/
def parameter_content (k : Str) (string : Bool) (value : Str) : Str :=
  " name=\"".toList ++ k ++ "\" string=\"".toList ++ flag string ++ "\">".toList ++ value ++ ['<']

def parameter (py : Python) (kv : String × Val) : Str :=
  parameter_start ++ parameter_content kv.1.toList (is_str kv.2) (value_text py kv.2) ++ parameter_end ++ ['>']

def encode_arguments_to_dsml (py : Python) (arguments : Val) : Option Str :=
  (arguments_of py arguments).map fun l => ['\n'].intercalate (l.map (parameter py))

def tool_call (py : Python) (tc : ToolCall) : Option Str :=
  (encode_arguments_to_dsml py tc.arguments).map fun arguments =>
    invoke_start ++ " name=\"".toList ++ tc.name ++ "\">\n".toList ++ arguments ++ ['\n'] ++ invoke_end ++ ['>']

def tool_calls (py : Python) (calls : List ToolCall) : Option Str :=
  (calls.mapM (tool_call py)).map fun tc_list =>
    tool_calls_start_token ++ ">\n".toList ++ ['\n'].intercalate tc_list ++ ['\n'] ++ tool_calls_end_token

/-! ## One message -/

/-- `content or ""` where a string is formatted. -/
def content_or_empty (py : Python) : Option Content → Str
  | none | some .null | some (.parts []) => []
  | some (.text s) => s
  | some (.parts l) => py.repr l

def format_content (py : Python) : Content → Str
  | .null => "None".toList
  | .text s => s
  | .parts l => py.repr l

def unsupported (type : Option Str) : Str := "[Unsupported ".toList ++ type.getD "None".toList ++ [']']

def part_text (part : Part) : Str := if part.type = some "text".toList then part.text else unsupported part.type

/-- Only strings can be joined. -/
def block_text (py : Python) : Block → Option Str
  | .text (.text s) => some s
  | .text _ => none
  | .tool_result _ content =>
    let tool_content := match content with
      | .parts l => "\n\n".toList.intercalate (l.map part_text)
      | content => format_content py content
    some ("<tool_result>".toList ++ tool_content ++ "</tool_result>".toList)
  | .other type => some (unsupported type)

def tools_from_openai_format (tools : List Val) : Option (List Val) :=
  tools.mapM fun
    | .map tool => tool.lookup "function"
    | _ => none

def render_tools (py : Python) (tools : List Val) : Str :=
  "## Tools\n\nYou have access to a set of tools to help answer the user's question. ".toList ++
  "You can invoke tools by writing a \"<".toList ++ dsml_token ++
  "tool_calls>\" block like the following:\n\n<".toList ++ dsml_token ++ "tool_calls>\n<".toList ++ dsml_token ++
  "invoke name=\"$TOOL_NAME\">\n<".toList ++ dsml_token ++
  "parameter name=\"$PARAMETER_NAME\" string=\"true|false\">$PARAMETER_VALUE</".toList ++ dsml_token ++
  "parameter>\n...\n</".toList ++ dsml_token ++ "invoke>\n<".toList ++ dsml_token ++
  "invoke name=\"$TOOL_NAME2\">\n...\n</".toList ++ dsml_token ++ "invoke>\n</".toList ++ dsml_token ++
  "tool_calls>\n\nString parameters should be specified as is and set `string=\"true\"`. ".toList ++
  "For all other types (numbers, booleans, arrays, objects), ".toList ++
  "pass the value in JSON format and set `string=\"false\"`.\n\n".toList ++
  "If thinking_mode is enabled (triggered by ".toList ++ thinking_start_token ++
  "), you MUST output your complete reasoning inside ".toList ++ thinking_start_token ++ "...".toList ++
  thinking_end_token ++ " BEFORE any tool calls or final response.\n\nOtherwise, output directly after ".toList ++
  thinking_end_token ++ " with tool calls or final response.\n\n### Available Tool Schemas\n\n".toList ++
  ['\n'].intercalate (tools.map (to_json py)) ++
  ("\n\nYou MUST strictly follow the above defined tool name and parameter schemas to invoke tool calls.\n").toList

def response_format_part (py : Python) (response_format : Val) : Str :=
  if truthy response_format then
    "\n\n## Response Format:\n\nYou MUST strictly adhere to the following schema to reply:\n".toList ++ to_json py response_format
  else []

def tools_part (py : Python) (tools : List Val) : Str := if tools = [] then [] else "\n\n".toList ++ render_tools py tools

/-- The text of an assistant message; `thinking_part` is its reasoning, where that is kept. -/
def render_assistant (py : Python) (msg : Message) (thinking_part : Str) : Option Str := do
  let tc_content ← if msg.tool_calls = [] then some [] else tool_calls py msg.tool_calls
  return thinking_part ++ content_or_empty py msg.content ++ tc_content ++ if msg.wo_eos then [] else eos_token

def is_user (role : Role) : Bool := role = .user || role = .developer

/-- `-1` without a user or developer message. -/
def find_last_user_index (messages : List Message) : Int :=
  messages.zipIdx.foldl (fun last (msg, idx) => if is_user msg.role then (idx : Int) else last) (-1)

/-- What a message says, without what follows it. -/
def render_role (py : Python) (index : Nat) (messages : List Message) (msg : Message) (thinking_mode : ThinkingMode)
    (drop_thinking : Bool) : Option Str := do
  let tools ← tools_from_openai_format msg.tools
  match msg.role with
  | .system =>
    some (content_or_empty py msg.content ++ tools_part py tools ++ response_format_part py msg.response_format)
  | .developer =>
    match msg.content with
    | some (.text (c :: cs)) =>
      some (user_sp_token ++ c :: cs ++ tools_part py tools ++ response_format_part py msg.response_format)
    | _ => none
  | .user =>
    match msg.content_blocks.getD [], msg.content with
    | [], none | [], some .null | [], some (.parts []) => some user_sp_token
    | [], some (.text s) => some (user_sp_token ++ s)
    | [], some (.parts _) => none
    | blocks, _ => do
      let parts ← blocks.mapM (block_text py)
      return user_sp_token ++ "\n\n".toList.intercalate parts
  | .latest_reminder => some (latest_reminder_sp_token ++ format_content py (msg.content.getD .null))
  | .assistant =>
    let prev_has_task := index ≠ 0 && (messages[index - 1]?.bind (·.task)).isSome
    render_assistant py msg
      (if thinking_mode = .thinking && !prev_has_task && (!drop_thinking || find_last_user_index messages < index) then
        msg.reasoning_content ++ thinking_end_token
      else [])
  | .tool | .direct_search_results | .other _ => none

/-- The tokens that hand over to the model. -/
def transition (index : Nat) (messages : List Message) (msg : Message) (thinking_mode : ThinkingMode)
    (drop_thinking : Bool) : Option Str :=
  let next := messages[index + 1]?
  if next.any fun m => m.role ≠ .assistant && m.role ≠ .latest_reminder then some []
  else
    match msg.task with
    | some task => do
      let task_sp_token ← ds_task_sp_tokens.lookup task
      if task ≠ "action" then return task_sp_token
      else
        return assistant_sp_token ++
          (if thinking_mode = .thinking then thinking_start_token else thinking_end_token) ++ task_sp_token
    | none =>
      if is_user msg.role then
        some (assistant_sp_token ++
          if thinking_mode = .thinking && (!drop_thinking || find_last_user_index messages ≤ index) then thinking_start_token
          else thinking_end_token)
      else some []

def effort_prompt (reasoning_effort : Option String) : Option Str :=
  match reasoning_effort with
  | none | some "" => reasoning_effort_prompts.lookup "low"
  | some effort => reasoning_effort_prompts.lookup effort

def render_message (py : Python) (index : Nat) (messages : List Message) (thinking_mode : ThinkingMode) (drop_thinking : Bool)
    (reasoning_effort : Option String) : Option Str := do
  let msg ← messages[index]?
  let effort ← effort_prompt reasoning_effort
  let said ← render_role py index messages msg thinking_mode drop_thinking
  let next ← transition index messages msg thinking_mode drop_thinking
  return (if index = 0 && thinking_mode = .thinking then effort else []) ++ said ++ next

/-! ## Tool results inside user messages -/

def holds_blocks (msg : Message) : Bool := msg.role = .user && msg.content_blocks.isSome

def add_block (msg : Message) (block : Block) : Message :=
  { msg with content_blocks := some (msg.content_blocks.getD [] ++ [block]) }

def merge_message (merged : List Message) (msg : Message) : List Message :=
  match msg.role with
  | .tool =>
    let tool_block := .tool_result msg.tool_call_id (msg.content.getD (.text []))
    match merged.getLast? with
    | some last =>
      if holds_blocks last then merged.dropLast ++ [add_block last tool_block]
      else merged ++ [{ role := .user, content_blocks := some [tool_block] }]
    | none => [{ role := .user, content_blocks := some [tool_block] }]
  | .user =>
    let content := msg.content.getD (.text [])
    let new_msg : Message :=
      { role := .user, content := some content, content_blocks := some [.text content], task := msg.task, wo_eos := msg.wo_eos }
    match merged.getLast? with
    | some last =>
      if holds_blocks last && last.task.isNone then merged.dropLast ++ [add_block last (.text content)]
      else merged ++ [new_msg]
    | none => [new_msg]
  | _ => merged ++ [msg]

def merge_tool_messages (messages : List Message) : List Message := messages.foldl merge_message []

def call_id (tc : ToolCall) : Str := if tc.id ≠ [] then tc.id else tc.function_id

/-- The place of each call by its id; the later of two calls with one id counts. -/
def call_order (calls : List ToolCall) : List (Str × Nat) :=
  calls.zipIdx.foldl (fun order (tc, idx) => if call_id tc = [] then order else (call_id tc, idx) :: order) []

def is_tool_result : Block → Bool
  | .tool_result _ _ => true
  | _ => false

def place (order : List (Str × Nat)) : Block → Nat
  | .tool_result tool_use_id _ => (order.lookup tool_use_id).getD 0
  | _ => 0

/-- The tool results of `blocks` replaced by `sorted`, one by one. -/
def refill : List Block → List Block → List Block
  | [], _ => []
  | block :: blocks, sorted =>
    if is_tool_result block then
      match sorted with
      | s :: sorted => s :: refill blocks sorted
      | [] => block :: refill blocks []
    else block :: refill blocks sorted

def sort_blocks (order : List (Str × Nat)) (blocks : List Block) : List Block :=
  let tool_blocks := blocks.filter is_tool_result
  if 1 < tool_blocks.length ∧ order ≠ [] then
    refill blocks (tool_blocks.mergeSort fun a b => place order a ≤ place order b)
  else blocks

def sort_from (last_tool_call_order : List (Str × Nat)) : List Message → List Message
  | [] => []
  | msg :: messages =>
    if msg.role = .assistant ∧ msg.tool_calls ≠ [] then msg :: sort_from (call_order msg.tool_calls) messages
    else if msg.role = .user then
      { msg with content_blocks := msg.content_blocks.map (sort_blocks last_tool_call_order) } ::
        sort_from last_tool_call_order messages
    else msg :: sort_from last_tool_call_order messages

def sort_tool_results_by_call_order (messages : List Message) : List Message := sort_from [] messages

/-! ## The whole conversation -/

/-- Developer messages before the last user message go, and assistant messages there lose their reasoning. -/
def drop_thinking_message (last_user_idx : Int) (msg : Message) (idx : Nat) : Option Message :=
  match msg.role with
  | .user | .system | .tool | .latest_reminder | .direct_search_results => some msg
  | .assistant => if last_user_idx ≤ idx then some msg else some { msg with reasoning_content := [] }
  | .developer | .other _ => if last_user_idx ≤ idx then some msg else none

def drop_thinking_messages (messages : List Message) : List Message :=
  messages.zipIdx.filterMap fun (msg, idx) => drop_thinking_message (find_last_user_index messages) msg idx

/-- The messages as they are rendered, how many of them are context, and whether reasoning is dropped. -/
structure Prepared where
  messages : List Message
  context_len : Nat
  drop_thinking : Bool

def prepare (messages context : List Message) (thinking_mode : ThinkingMode) (drop_thinking : Bool) : Prepared :=
  let messages := (sort_tool_results_by_call_order (context ++ merge_tool_messages messages)).drop context.length
  let context := sort_tool_results_by_call_order (merge_tool_messages context)
  let full_messages := context ++ messages
  let drop_thinking := drop_thinking && !full_messages.any fun m => !m.tools.isEmpty
  if thinking_mode = .thinking && drop_thinking then
    ⟨drop_thinking_messages full_messages, (drop_thinking_messages context).length, drop_thinking⟩
  else ⟨full_messages, context.length, drop_thinking⟩

def render_from (py : Python) (p : Prepared) (thinking_mode : ThinkingMode) (reasoning_effort : Option String)
    (indices : List Nat) : Option Str :=
  (indices.mapM fun idx => render_message py idx p.messages thinking_mode p.drop_thinking reasoning_effort).map List.flatten

def encode_messages (py : Python) (messages : List Message) (thinking_mode : ThinkingMode) (context : List Message)
    (drop_thinking add_default_bos_token : Bool) (reasoning_effort : Option String) : Option Str :=
  let p := prepare messages context thinking_mode drop_thinking
  (render_from py p thinking_mode reasoning_effort
    (List.range' p.context_len (p.messages.length - p.context_len))).map fun rendered =>
      (if add_default_bos_token && context.isEmpty then bos_token else []) ++ rendered

end AiroAgent.DeepseekV4
