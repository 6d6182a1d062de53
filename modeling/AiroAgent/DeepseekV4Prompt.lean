import AiroAgent.DeepseekV4RoundTrip
import AiroAgent.Lib.Listing

/-!
# Prompts

What the whole encoding does with a conversation that goes on: an answer is
appended to the very prompt it was given for.
-/

namespace AiroAgent.DeepseekV4

section
variable {py : Python} {messages context : List Message} {a m : Message} {thinking_mode : ThinkingMode}
  {drop_thinking bos : Bool} {reasoning_effort : Option String} {order : List (Str × Nat)} {index : Nat}

/-! ## One more assistant message -/

theorem merge_append (ha : a.role = .assistant) : merge_tool_messages (messages ++ [a]) = merge_tool_messages messages ++ [a] := by
  unfold merge_tool_messages
  rw [List.foldl_append, List.foldl_cons, List.foldl_nil]
  simp [merge_message, ha]

theorem sort_append (ha : a.role = .assistant) : sort_from order (messages ++ [a]) = sort_from order messages ++ [a] := by
  induction messages generalizing order with
  | nil => by_cases hc : a.tool_calls = [] <;> simp [sort_from, ha, hc]
  | cons m messages ih =>
    rw [List.cons_append, sort_from, sort_from]
    by_cases hm : m.role = .assistant ∧ m.tool_calls ≠ []
    · rw [if_pos hm, if_pos hm, ih, List.cons_append]
    · rw [if_neg hm, if_neg hm]
      by_cases hu : m.role = .user
      · rw [if_pos hu, if_pos hu, ih, List.cons_append]
      · rw [if_neg hu, if_neg hu, ih, List.cons_append]

theorem length_sort : (sort_from order messages).length = messages.length := by
  induction messages generalizing order with
  | nil => rfl
  | cons m messages ih =>
    rw [sort_from]
    split
    · simp [ih]
    · split <;> simp [ih]

theorem find_last_append : find_last_user_index (messages ++ [m]) =
    if is_user m.role then (messages.length : Int) else find_last_user_index messages := by
  unfold find_last_user_index
  rw [List.zipIdx_append, List.foldl_append]
  simp

theorem find_last_lt (messages : List Message) : find_last_user_index messages < messages.length := by
  induction messages using List.reverseRecOn with
  | nil => decide
  | append_singleton messages m ih =>
    rw [find_last_append, List.length_append, List.length_cons, List.length_nil]
    split
    · omega
    · omega

theorem not_user_of_assistant (ha : a.role = .assistant) : is_user a.role = false := by
  rw [ha]
  rfl

theorem drop_append (ha : a.role = .assistant) :
    drop_thinking_messages (messages ++ [a]) = drop_thinking_messages messages ++ [a] := by
  unfold drop_thinking_messages
  rw [find_last_append, not_user_of_assistant ha, if_neg Bool.false_ne_true, List.zipIdx_append, List.filterMap_append]
  have hkeep : find_last_user_index messages ≤ (messages.length : Int) := Int.le_of_lt (find_last_lt messages)
  simp [drop_thinking_message, ha, hkeep]

theorem prepare_append (ha : a.role = .assistant) (ht : a.tools = []) :
    prepare (messages ++ [a]) context thinking_mode drop_thinking =
      { prepare messages context thinking_mode drop_thinking with
        messages := (prepare messages context thinking_mode drop_thinking).messages ++ [a] } := by
  have hlen : context.length ≤ (sort_tool_results_by_call_order (context ++ merge_tool_messages messages)).length := by
    rw [sort_tool_results_by_call_order, length_sort, List.length_append]
    omega
  have hsort : (sort_tool_results_by_call_order (context ++ merge_tool_messages (messages ++ [a]))).drop context.length =
      (sort_tool_results_by_call_order (context ++ merge_tool_messages messages)).drop context.length ++ [a] := by
    rw [merge_append ha, ← List.append_assoc, sort_tool_results_by_call_order, sort_append ha]
    exact List.drop_append_of_le_length hlen
  unfold prepare
  simp only [hsort, ← List.append_assoc, List.any_append, List.any_cons, List.any_nil, ht, List.isEmpty_nil, Bool.not_true,
    Bool.or_false, drop_append ha]
  split <;> rfl

/-! ## The messages before it are written as before -/

theorem getElem?_before (hi : index < messages.length) : (messages ++ [a])[index]? = messages[index]? :=
  List.getElem?_append_left hi

theorem render_role_append (ha : a.role = .assistant) (hi : index < messages.length) :
    render_role py index (messages ++ [a]) m thinking_mode drop_thinking =
      render_role py index messages m thinking_mode drop_thinking := by
  unfold render_role
  have hprev : (messages ++ [a])[index - 1]? = messages[index - 1]? := getElem?_before (by omega)
  rw [find_last_append, not_user_of_assistant ha, if_neg Bool.false_ne_true, hprev]

theorem transition_append (ha : a.role = .assistant) (hi : index < messages.length) :
    transition index (messages ++ [a]) m thinking_mode drop_thinking =
      transition index messages m thinking_mode drop_thinking := by
  have hnext : ((messages ++ [a])[index + 1]?.any fun m => m.role ≠ .assistant && m.role ≠ .latest_reminder) =
      (messages[index + 1]?.any fun m => m.role ≠ .assistant && m.role ≠ .latest_reminder) := by
    by_cases hn : index + 1 < messages.length
    · rw [getElem?_before hn]
    · -- the message before the answer is as good as the last one
      have hlast : index + 1 = messages.length := by omega
      rw [hlast, List.getElem?_concat_length, List.getElem?_length]
      simp [ha]
  unfold transition
  rw [find_last_append, not_user_of_assistant ha, if_neg Bool.false_ne_true]
  simp only [hnext]

theorem render_before (ha : a.role = .assistant) (hi : index < messages.length) :
    render_message py index (messages ++ [a]) thinking_mode drop_thinking reasoning_effort =
      render_message py index messages thinking_mode drop_thinking reasoning_effort := by
  unfold render_message
  simp only [getElem?_before hi, render_role_append ha hi, transition_append ha hi]

/-- The last message, when it answers one without a task, is its completion. -/
theorem render_answer (ha : a.role = .assistant) (ht : a.tools = []) (htask : a.task = none) (hne : messages ≠ [])
    (hlast : ∀ m ∈ messages.getLast?, m.task = none) (he : (effort_prompt reasoning_effort).isSome = true) :
    render_message py messages.length (messages ++ [a]) thinking_mode drop_thinking reasoning_effort =
      completion py a thinking_mode := by
  obtain ⟨effort, heffort⟩ := Option.isSome_iff_exists.mp he
  have hpos : 0 < messages.length := List.length_pos_iff.mpr hne
  have hprev : ((messages ++ [a])[messages.length - 1]?.bind (·.task)).isSome = false := by
    rw [getElem?_before (by omega), ← List.getLast?_eq_getElem?]
    cases hl : messages.getLast? with
    | none => rfl
    | some m => simp [hlast m hl]
  have htransition : transition messages.length (messages ++ [a]) a thinking_mode drop_thinking = some [] := by
    unfold transition
    rw [List.getElem?_eq_none (by simp), htask]
    simp [not_user_of_assistant ha]
  have hrole : render_role py messages.length (messages ++ [a]) a thinking_mode drop_thinking = completion py a thinking_mode := by
    unfold render_role completion
    rw [find_last_append, not_user_of_assistant ha, if_neg Bool.false_ne_true, hprev, ht, ha]
    have hlt := find_last_lt messages
    cases thinking_mode <;> simp [tools_from_openai_format, hlt]
  unfold render_message
  simp only [List.getElem?_concat_length, heffort, Option.bind_eq_bind, Option.bind_some, hrole, htransition]
  have h0 : messages.length ≠ 0 := by omega
  cases completion py a thinking_mode <;> simp [h0]

/-! ## What is left of a conversation -/

/-- No message with a task has nothing but tool results behind it. -/
def TaskDone (messages : List Message) : Prop :=
  ∀ front m results, messages = front ++ m :: results → (∀ x ∈ results, x.role = .tool) → m.task = none

theorem TaskDone.init (h : TaskDone (messages ++ [m])) (hm : m.role = .tool) : TaskDone messages := by
  intro front x results he hr
  refine h front x (results ++ [m]) (by rw [he, List.append_assoc]; rfl) fun y hy => ?_
  obtain hy | hy := List.mem_append.mp hy
  · exact hr y hy
  · rw [List.mem_singleton.mp hy, hm]

/-- Only tool results are merged into a message with a task. -/
theorem merge_last_task (h : TaskDone messages) : ∀ last ∈ (merge_tool_messages messages).getLast?, last.task = none := by
  induction messages using List.reverseRecOn with
  | nil => simp [merge_tool_messages]
  | append_singleton messages m ih =>
    have hm : m.task = none := h messages m [] rfl (by simp)
    have hstep : merge_tool_messages (messages ++ [m]) = merge_message (merge_tool_messages messages) m := by
      simp [merge_tool_messages]
    rw [hstep]
    unfold merge_message
    cases hr : m.role with
    | tool =>
      cases hl : (merge_tool_messages messages).getLast? with
      | none => simp
      | some last =>
        have hlast := ih (h.init hr) last hl
        by_cases hb : holds_blocks last = true
        · simp [hb, add_block, hlast]
        · simp [hb]
    | user =>
      cases hl : (merge_tool_messages messages).getLast? with
      | none => simp [hm]
      | some last =>
        by_cases hb : (holds_blocks last && last.task.isNone) = true
        · simp only [hb, if_true, List.getLast?_concat, Option.mem_some_iff, forall_eq']
          exact Option.isNone_iff_eq_none.mp (Bool.and_eq_true_iff.mp hb).2
        · simp [hb, hm]
    | _ => simp [hm]

theorem merge_ne_nil (h : messages ≠ []) : merge_tool_messages messages ≠ [] := by
  obtain ⟨init, m, rfl⟩ := (List.eq_nil_or_concat' messages).resolve_left h
  have hstep : merge_tool_messages (init ++ [m]) = merge_message (merge_tool_messages init) m := by
    simp [merge_tool_messages]
  rw [hstep]
  unfold merge_message
  cases m.role with
  | tool =>
    cases (merge_tool_messages init).getLast? with
    | none => simp
    | some last => by_cases hb : holds_blocks last = true <;> simp [hb]
  | user =>
    cases (merge_tool_messages init).getLast? with
    | none => simp
    | some last => by_cases hb : (holds_blocks last && last.task.isNone) = true <;> simp [hb]
  | _ => simp

/-- Sorting changes the blocks of messages only. -/
theorem sort_map {α : Type} {f : Message → α} (hf : ∀ m bs, f { m with content_blocks := bs } = f m) :
    (sort_from order messages).map f = messages.map f := by
  induction messages generalizing order with
  | nil => rfl
  | cons m messages ih =>
    rw [sort_from]
    split
    · simp [ih]
    · split
      · simp [ih, hf]
      · simp [ih]

theorem keep_late {last : Int} (h : last ≤ index) : drop_thinking_message last m index = some m := by
  unfold drop_thinking_message
  split <;> simp [h]

/-- The last message stays, and stays as it is. -/
theorem getLast?_drop : (drop_thinking_messages messages).getLast? = messages.getLast? := by
  induction messages using List.reverseRecOn with
  | nil => rfl
  | append_singleton messages m ih =>
    have hlate : find_last_user_index (messages ++ [m]) ≤ (messages.length : Int) := by
      have hlt := find_last_lt (messages ++ [m])
      rw [List.length_append, List.length_cons, List.length_nil] at hlt
      omega
    unfold drop_thinking_messages
    rw [List.zipIdx_append, List.filterMap_append]
    simp [keep_late hlate]

def sorted_messages (messages context : List Message) : List Message :=
  (sort_tool_results_by_call_order (context ++ merge_tool_messages messages)).drop context.length

def sorted_context (context : List Message) : List Message := sort_tool_results_by_call_order (merge_tool_messages context)

/-- The conversation is rendered as it was sorted, or in thinking mode with what is dropped gone. -/
theorem prepare_cases (messages context : List Message) (thinking_mode : ThinkingMode) (drop_thinking : Bool) :
    (∃ d, prepare messages context thinking_mode drop_thinking =
      ⟨sorted_context context ++ sorted_messages messages context, (sorted_context context).length, d⟩) ∨
    (thinking_mode = .thinking ∧ drop_thinking = true ∧ ∃ d, prepare messages context thinking_mode drop_thinking =
      ⟨drop_thinking_messages (sorted_context context ++ sorted_messages messages context),
        (drop_thinking_messages (sorted_context context)).length, d⟩) := by
  unfold prepare
  dsimp only
  split
  · rename_i hdrop
    simp only [Bool.and_eq_true, decide_eq_true_eq] at hdrop
    exact .inr ⟨hdrop.1, hdrop.2.1, _, rfl⟩
  · exact .inl ⟨_, rfl⟩

theorem length_sorted_messages (messages context : List Message) : (sorted_messages messages context).length = (merge_tool_messages messages).length := by
  rw [sorted_messages, sort_tool_results_by_call_order, List.length_drop, length_sort, List.length_append]
  omega

theorem tasks_sorted_messages (messages context : List Message) :
    (sorted_messages messages context).map (·.task) = (merge_tool_messages messages).map (·.task) := by
  have htasks : (sort_tool_results_by_call_order (context ++ merge_tool_messages messages)).map (·.task) =
      (context ++ merge_tool_messages messages).map (·.task) := sort_map fun _ _ => rfl
  rw [sorted_messages, List.map_drop, htasks, ← List.map_drop, List.drop_left]

theorem prepare_getLast? (hne : messages ≠ []) :
    ∃ last, (prepare messages context thinking_mode drop_thinking).messages.getLast? = some last ∧
      some last.task = (merge_tool_messages messages).getLast?.map (·.task) := by
  have hsorted : sorted_messages messages context ≠ [] := by
    have hlen : 0 < (merge_tool_messages messages).length := List.length_pos_iff.mpr (merge_ne_nil hne)
    rw [← length_sorted_messages messages context] at hlen
    exact List.length_pos_iff.mp hlen
  have hlast : (sorted_context context ++ sorted_messages messages context).getLast? =
      some ((sorted_messages messages context).getLast hsorted) := by
    rw [List.getLast?_append, List.getLast?_eq_some_getLast hsorted]
    rfl
  refine ⟨(sorted_messages messages context).getLast hsorted, ?_, ?_⟩
  · obtain ⟨d, hp⟩ | ⟨-, -, d, hp⟩ := prepare_cases messages context thinking_mode drop_thinking
    · rw [hp, hlast]
    · rw [hp, getLast?_drop, hlast]
  · rw [← List.getLast?_map, ← tasks_sorted_messages messages context, List.getLast?_map,
      List.getLast?_eq_some_getLast hsorted]
    rfl

/-! ## The context, where reasoning is dropped -/

/-- The roles whose messages stay wherever they stand. -/
def stays : Role → Bool
  | .developer | .other _ => false
  | _ => true

/-- Every developer message, and every one of an unknown role, has a user message or a tool result behind it. -/
def Answered (messages : List Message) : Prop :=
  ∀ front m back, messages = front ++ m :: back → stays m.role = false → ∃ x ∈ back, x.role = .user ∨ x.role = .tool

/-- The same of a list that holds no tool results any more. -/
def Overtaken (messages : List Message) : Prop :=
  ∀ front m back, messages = front ++ m :: back → stays m.role = false → ∃ x ∈ back, x.role = .user

theorem overtaken_of_user_last {last : Message} (h : last.role = .user) : Overtaken (messages ++ [last]) := by
  intro front m back he hm
  obtain rfl | ⟨back, x, rfl⟩ := List.eq_nil_or_concat' back
  · obtain ⟨-, he⟩ := List.append_inj' he rfl
    cases he
    rw [h] at hm
    cases hm
  · rw [← List.cons_append, ← List.append_assoc] at he
    obtain ⟨-, he⟩ := List.append_inj' he rfl
    cases he
    exact ⟨last, by simp, h⟩

theorem overtaken_append (h : Overtaken messages) (hm : stays m.role = true) : Overtaken (messages ++ [m]) := by
  intro front x back he hx
  obtain rfl | ⟨back, y, rfl⟩ := List.eq_nil_or_concat' back
  · obtain ⟨-, he⟩ := List.append_inj' he rfl
    cases he
    rw [hm] at hx
    cases hx
  · rw [← List.cons_append, ← List.append_assoc] at he
    obtain ⟨rfl, -⟩ := List.append_inj' he rfl
    obtain ⟨u, hu, hrole⟩ := h front x back rfl hx
    exact ⟨u, List.mem_append_left _ hu, hrole⟩

theorem merge_overtaken (h : Answered messages) : Overtaken (merge_tool_messages messages) := by
  induction messages using List.reverseRecOn with
  | nil => intro front m back he; simp [merge_tool_messages] at he
  | append_singleton messages m ih =>
    have hstep : merge_tool_messages (messages ++ [m]) = merge_message (merge_tool_messages messages) m := by
      simp [merge_tool_messages]
    have hinit : m.role ≠ .user → m.role ≠ .tool → Answered messages := by
      intro hu ht front x back he hx
      obtain ⟨u, hmem, hrole⟩ := h front x (back ++ [m]) (by rw [he, List.append_assoc]; rfl) hx
      obtain hmem | hmem := List.mem_append.mp hmem
      · exact ⟨u, hmem, hrole⟩
      · rw [List.mem_singleton.mp hmem] at hrole
        exact absurd hrole (not_or.mpr ⟨hu, ht⟩)
    have hlast : ∀ last, holds_blocks last = true → ∀ block, (add_block last block).role = .user := by
      intro last hb block
      simp only [holds_blocks, Bool.and_eq_true, decide_eq_true_eq] at hb
      exact hb.1
    rw [hstep]
    unfold merge_message
    cases hr : m.role with
    | tool =>
      cases (merge_tool_messages messages).getLast? with
      | none => exact @overtaken_of_user_last [] _ rfl
      | some last =>
        by_cases hb : holds_blocks last = true
        · simp only [hb, if_true]
          exact overtaken_of_user_last (hlast last hb _)
        · simp only [hb]
          exact overtaken_of_user_last rfl
    | user =>
      cases (merge_tool_messages messages).getLast? with
      | none => exact @overtaken_of_user_last [] _ rfl
      | some last =>
        by_cases hb : (holds_blocks last && last.task.isNone) = true
        · simp only [hb, if_true]
          exact overtaken_of_user_last (hlast last (Bool.and_eq_true_iff.mp hb).1 _)
        · simp only [hb]
          exact overtaken_of_user_last rfl
    | developer =>
      obtain ⟨u, hu, -⟩ := h messages m [] rfl (by rw [hr]; rfl)
      cases hu
    | other name =>
      obtain ⟨u, hu, -⟩ := h messages m [] rfl (by rw [hr]; rfl)
      cases hu
    | _ => exact overtaken_append (ih (hinit (by simp [hr]) (by simp [hr]))) (by rw [hr]; rfl)

theorem le_find_last {i : Nat} {u : Message} (hi : messages[i]? = some u) (hu : is_user u.role = true) :
    (i : Int) ≤ find_last_user_index messages := by
  induction messages using List.reverseRecOn with
  | nil => cases hi
  | append_singleton messages m ih =>
    rw [find_last_append]
    by_cases hlt : i < messages.length
    · rw [List.getElem?_append_left hlt] at hi
      split
      · omega
      · exact ih hi
    · have hlast : i = messages.length := by
        have hbound := (List.getElem?_eq_some_iff.mp hi).1
        rw [List.length_append, List.length_cons, List.length_nil] at hbound
        omega
      rw [hlast, List.getElem?_concat_length] at hi
      cases hi
      rw [if_pos hu]
      exact_mod_cast hlast.le

theorem length_drop : (drop_thinking_messages messages).length =
    messages.zipIdx.countP fun x => (drop_thinking_message (find_last_user_index messages) x.1 x.2).isSome :=
  List.length_filterMap_eq_countP

theorem countP_stays : messages.countP (stays ·.role) = messages.zipIdx.countP fun x => stays x.1.role := by
  have hfst := List.countP_map (p := fun m : Message => stays m.role) (f := Prod.fst) (l := messages.zipIdx)
  rw [List.zipIdx_map_fst] at hfst
  exact hfst

theorem isSome_of_stays {last : Int} (h : stays m.role = true) : (drop_thinking_message last m index).isSome = true := by
  unfold stays at h
  unfold drop_thinking_message
  cases hr : m.role with
  | developer => rw [hr] at h; cases h
  | other name => rw [hr] at h; cases h
  | assistant => by_cases hl : last ≤ index <;> simp [hl]
  | _ => rfl

theorem isSome_of_goes {last : Int} (h : stays m.role = false) : (drop_thinking_message last m index).isSome = true ↔ last ≤ index := by
  unfold stays at h
  unfold drop_thinking_message
  cases hr : m.role with
  | developer => by_cases hl : last ≤ index <;> simp [hl]
  | other name => by_cases hl : last ≤ index <;> simp [hl]
  | _ => rw [hr] at h; cases h

/-- What stays wherever it stands is never dropped. -/
theorem countP_le_length_drop : messages.countP (stays ·.role) ≤ (drop_thinking_messages messages).length := by
  rw [length_drop, countP_stays]
  exact List.countP_mono_left fun x _ hx => isSome_of_stays hx

/-- Where every other message is overtaken, nothing else is left. -/
theorem length_drop_le (h : Overtaken messages) : (drop_thinking_messages messages).length ≤ messages.countP (stays ·.role) := by
  rw [length_drop, countP_stays]
  refine List.countP_mono_left fun x hx hkept => ?_
  obtain ⟨m, i⟩ := x
  have hi : messages[i]? = some m := List.mk_mem_zipIdx_iff_getElem?.mp hx
  by_contra hgoes
  rw [Bool.not_eq_true] at hgoes
  obtain ⟨hlt, rfl⟩ := List.getElem?_eq_some_iff.mp hi
  obtain ⟨u, hu, hrole⟩ := h (messages.take i) messages[i] (messages.drop (i + 1)) (by simp) hgoes
  obtain ⟨j, hj, rfl⟩ := List.getElem_of_mem hu
  have hget : messages[i + 1 + j]? = some (messages.drop (i + 1))[j] := by
    rw [← List.getElem?_drop, List.getElem?_eq_getElem hj]
  have hlast := le_find_last hget (by rw [is_user, hrole]; rfl)
  have hle := (isSome_of_goes hgoes).mp hkept
  omega

theorem overtaken_sorted (h : Answered context) : Overtaken (sorted_context context) := by
  have hroles : (sorted_context context).map (·.role) = (merge_tool_messages context).map (·.role) := sort_map fun _ _ => rfl
  intro front m back he hm
  rw [he, List.map_append, List.map_cons] at hroles
  obtain ⟨front', rest, hmerged, -, hrest⟩ := List.map_eq_append_iff.mp hroles.symm
  obtain ⟨m', back', rfl, hrole, hback⟩ := List.map_eq_cons_iff.mp hrest
  obtain ⟨u, hu, huser⟩ := merge_overtaken h front' m' back' hmerged (by rw [hrole]; exact hm)
  have hmem : Role.user ∈ back.map (·.role) := by
    rw [← hback, ← huser]
    exact List.mem_map_of_mem hu
  obtain ⟨x, hx, hxrole⟩ := List.mem_map.mp hmem
  exact ⟨x, hx, hxrole⟩

/-- No message of the context is rendered again. -/
theorem context_len_le (h : thinking_mode = .thinking → drop_thinking = true → Answered context) :
    (prepare messages context thinking_mode drop_thinking).context_len ≤
      (prepare messages context thinking_mode drop_thinking).messages.length := by
  obtain ⟨d, hp⟩ | ⟨ht, hd, d, hp⟩ := prepare_cases messages context thinking_mode drop_thinking
  · rw [hp, List.length_append]
    exact Nat.le_add_right _ _
  · rw [hp]
    calc (drop_thinking_messages (sorted_context context)).length
        ≤ (sorted_context context).countP (stays ·.role) := length_drop_le (overtaken_sorted (h ht hd))
      _ ≤ (sorted_context context ++ sorted_messages messages context).countP (stays ·.role) := by
        rw [List.countP_append]
        exact Nat.le_add_right _ _
      _ ≤ _ := countP_le_length_drop

/-! ## The answer behind the prompt -/

/-- **An answer extends its prompt.** With the answer appended, the conversation is encoded as the
prompt that was given to the model, and behind it the completion. -/
theorem answer_extends_prompt (ha : a.role = .assistant) (ht : a.tools = []) (htask : a.task = none) (hne : messages ≠ [])
    (hdone : TaskDone messages) (hcontext : thinking_mode = .thinking → drop_thinking = true → Answered context)
    (he : (effort_prompt reasoning_effort).isSome = true) :
    encode_messages py (messages ++ [a]) thinking_mode context drop_thinking bos reasoning_effort =
      (encode_messages py messages thinking_mode context drop_thinking bos reasoning_effort).bind fun prompt =>
        (completion py a thinking_mode).map fun text => prompt ++ text := by
  have hlen := @context_len_le messages context thinking_mode drop_thinking hcontext
  obtain ⟨last, hlast, htasks⟩ := @prepare_getLast? messages context thinking_mode drop_thinking hne
  have hnone : last.task = none := by
    obtain ⟨merged, hmerged, he⟩ := Option.map_eq_some_iff.mp htasks.symm
    rw [← he]
    exact merge_last_task hdone merged hmerged
  unfold encode_messages
  rw [prepare_append ha ht]
  generalize prepare messages context thinking_mode drop_thinking = p at *
  obtain ⟨prepared, context_len, drop⟩ := p
  simp only at hlen hlast ⊢
  have hprepared : prepared ≠ [] := by
    intro hnil
    rw [hnil] at hlast
    cases hlast
  have htask_done : ∀ m ∈ prepared.getLast?, m.task = none := by
    intro m hm
    rw [hlast] at hm
    cases hm
    exact hnone
  have hindices : List.range' context_len ((prepared ++ [a]).length - context_len) =
      List.range' context_len (prepared.length - context_len) ++ [prepared.length] := by
    have hsub : (prepared ++ [a]).length - context_len = prepared.length - context_len + 1 := by
      rw [List.length_append, List.length_cons, List.length_nil]
      omega
    have hend : context_len + (prepared.length - context_len) = prepared.length := by omega
    rw [hsub, List.range'_concat, Nat.one_mul, hend]
  have hbefore : (List.range' context_len (prepared.length - context_len)).mapM (fun idx =>
      render_message py idx (prepared ++ [a]) thinking_mode drop reasoning_effort) =
      (List.range' context_len (prepared.length - context_len)).mapM (fun idx =>
        render_message py idx prepared thinking_mode drop reasoning_effort) := by
    apply Listing.mapM_congr
    intro idx hidx
    rw [List.mem_range'_1] at hidx
    exact render_before ha (by omega)
  unfold render_from
  rw [hindices, List.mapM_append, hbefore]
  simp only [List.mapM_cons, List.mapM_nil, render_answer ha ht htask hprepared htask_done he]
  cases (List.range' context_len (prepared.length - context_len)).mapM (fun idx =>
      render_message py idx prepared thinking_mode drop reasoning_effort) with
  | none => rfl
  | some texts => cases completion py a thinking_mode <;> simp

end

/-! A question, with the call as its answer. -/

def question : List Message := [{ role := .user, content := some (.text "Will it rain in Oslo?".toList) }]

theorem answer_extends_prompt_weather :
    (encode_messages python question .thinking [] true true none).isSome = true ∧
    encode_messages python (question ++ [weather]) .thinking [] true true none =
      (encode_messages python question .thinking [] true true none).bind fun prompt =>
        (completion python weather .thinking).map fun text => prompt ++ text := by
  have hdone : TaskDone question := by
    intro front m results hq _
    have hmem : m ∈ question := by
      rw [hq]
      simp
    rw [List.mem_singleton.mp hmem]
  have hcontext : Answered [] := by
    intro front m back hnil
    simp at hnil
  exact ⟨by decide, answer_extends_prompt rfl rfl rfl (by simp [question]) hdone (fun _ _ => hcontext) rfl⟩

end AiroAgent.DeepseekV4
