import AiroAgent.DeepseekV4
import AiroAgent.Lib.Listing

/-!
# Tool results in a prompt

The results of tool calls are merged into the user message they belong to, and
sorted there: they stay in their turn, in the order of the calls.
-/

namespace AiroAgent.DeepseekV4

/-! ## What the messages give -/

/-- What a message has for the model to read. -/
def given (msg : Message) : Option Block :=
  match msg.role with
  | .tool => some (.tool_result msg.tool_call_id (msg.content.getD (.text [])))
  | .user => some (.text (msg.content.getD (.text [])))
  | _ => none

def blocks (msg : Message) : List Block := if msg.role = .user then msg.content_blocks.getD [] else []

/-- The order of the last calls there were, or the given one before any. -/
def order_from (order : List (Str × Nat)) (messages : List Message) : List (Str × Nat) :=
  ((messages.filter fun m => m.role = .assistant && !m.tool_calls.isEmpty).getLast?.map fun m => call_order m.tool_calls).getD order

/-- Texts stay where they are; the results among them are the same, by the order of the calls, and
results with one place in it in their own order. -/
structure InCallOrder (order : List (Str × Nat)) (before after : List Block) : Prop where
  kinds : after.map is_tool_result = before.map is_tool_result
  texts : after.filter (!is_tool_result ·) = before.filter (!is_tool_result ·)
  results : (after.filter is_tool_result).Perm (before.filter is_tool_result)
  sorted : (after.filter is_tool_result).Pairwise fun a b => place order a ≤ place order b
  stable : ∀ n, (after.filter is_tool_result).filter (place order · = n) = (before.filter is_tool_result).filter (place order · = n)

section
variable {messages merged : List Message} {msg m : Message} {order : List (Str × Nat)} {bs sorted : List Block} {block : Block} {i : Nat}

theorem blocks_add (h : holds_blocks msg = true) : blocks (add_block msg block) = blocks msg ++ [block] := by
  simp only [holds_blocks, Bool.and_eq_true, decide_eq_true_eq] at h
  simp [blocks, add_block, h.1]

theorem merge_message_blocks : (merge_message merged msg).flatMap blocks = merged.flatMap blocks ++ (given msg).toList := by
  have hlast : ∀ last, merged.getLast? = some last → ∀ block, holds_blocks last = true →
      (merged.dropLast ++ [add_block last block]).flatMap blocks = merged.flatMap blocks ++ [block] := by
    intro last hl block hb
    obtain ⟨init, rfl⟩ := List.getLast?_eq_some_iff.mp hl
    simp [blocks_add hb]
  unfold merge_message given
  cases hr : msg.role with
  | tool =>
    cases hl : merged.getLast? with
    | none =>
      obtain rfl := List.getLast?_eq_none_iff.mp hl
      rfl
    | some last =>
      by_cases hb : holds_blocks last = true
      · simp only [hb, if_true]
        exact hlast last hl _ hb
      · simp [hb, blocks]
  | user =>
    cases hl : merged.getLast? with
    | none =>
      obtain rfl := List.getLast?_eq_none_iff.mp hl
      rfl
    | some last =>
      by_cases hb : (holds_blocks last && last.task.isNone) = true
      · simp only [hb, if_true]
        rw [Bool.and_eq_true] at hb
        exact hlast last hl _ hb.1
      · simp [hb, blocks]
  | _ => simp [blocks, hr]

theorem merge_blocks : (merge_tool_messages messages).flatMap blocks = messages.filterMap given := by
  have hfold : ∀ merged, (messages.foldl merge_message merged).flatMap blocks = merged.flatMap blocks ++ messages.filterMap given := by
    induction messages with
    | nil => simp
    | cons m messages ih =>
      intro merged
      rw [List.foldl_cons, ih, merge_message_blocks, List.append_assoc]
      cases hg : given m <;> simp [hg]
  exact hfold []

theorem refill_spec (hs : ∀ b ∈ sorted, is_tool_result b = true) (hlen : sorted.length = (bs.filter is_tool_result).length) :
    (refill bs sorted).map is_tool_result = bs.map is_tool_result ∧
      (refill bs sorted).filter (!is_tool_result ·) = bs.filter (!is_tool_result ·) ∧
      (refill bs sorted).filter is_tool_result = sorted := by
  induction bs generalizing sorted with
  | nil =>
    obtain rfl := List.length_eq_zero_iff.mp hlen
    exact ⟨rfl, rfl, rfl⟩
  | cons b bs ih =>
    by_cases hb : is_tool_result b = true
    · rw [List.filter_cons_of_pos hb, List.length_cons] at hlen
      cases sorted with
      | nil => cases hlen
      | cons s sorted =>
        rw [List.forall_mem_cons] at hs
        obtain ⟨hkinds, htexts, hresults⟩ := ih hs.2 (Nat.succ.inj hlen)
        simp [refill, hb, hs.1, hkinds, htexts, hresults]
    · rw [List.filter_cons_of_neg hb] at hlen
      obtain ⟨hkinds, htexts, hresults⟩ := ih hs hlen
      simp [refill, hb, hkinds, htexts, hresults]

theorem sort_blocks_spec (order : List (Str × Nat)) (bs : List Block) : InCallOrder order bs (sort_blocks order bs) := by
  unfold sort_blocks
  by_cases h : 1 < (bs.filter is_tool_result).length ∧ order ≠ []
  · have hperm := List.mergeSort_perm (bs.filter is_tool_result) fun a b => place order a ≤ place order b
    have htools : ∀ b ∈ (bs.filter is_tool_result).mergeSort (fun a b => place order a ≤ place order b), is_tool_result b = true :=
      fun b hb => (List.mem_filter.mp (hperm.subset hb)).2
    obtain ⟨hkinds, htexts, hresults⟩ := refill_spec htools hperm.length_eq
    simp only [if_pos h]
    refine ⟨hkinds, htexts, ?_, ?_, fun n => ?_⟩
    · rw [hresults]
      exact hperm
    · rw [hresults]
      exact Listing.pairwise_key _
    · rw [hresults]
      exact Listing.filter_key_mergeSort _ n
  · rw [if_neg h]
    refine ⟨rfl, rfl, List.Perm.refl _, ?_, fun n => rfl⟩
    rw [not_and_or, not_lt, not_not] at h
    rcases h with h | rfl
    · apply List.pairwise_of_forall_sublist
      intro a b hab
      have hlen := hab.length_le
      simp only [List.length_cons, List.length_nil] at hlen
      omega
    · apply List.pairwise_of_forall
      intro a b
      cases a <;> cases b <;> simp [place]

theorem sort_blocks_nil : sort_blocks order [] = [] := by
  simp [sort_blocks]

theorem blocks_of_ne_user (h : m.role ≠ .user) : blocks m = [] := by
  rw [blocks, if_neg h]

theorem order_from_calls (h : msg.role = .assistant ∧ msg.tool_calls ≠ []) :
    order_from order (msg :: messages) = order_from (call_order msg.tool_calls) messages := by
  unfold order_from
  rw [List.filter_cons_of_pos (by simp [h])]
  cases hf : messages.filter fun m => m.role = .assistant && !m.tool_calls.isEmpty with
  | nil => rfl
  | cons m l => rw [List.getLast?_cons_cons, List.getLast?_cons]; rfl

theorem order_from_other (h : ¬ (msg.role = .assistant ∧ msg.tool_calls ≠ [])) :
    order_from order (msg :: messages) = order_from order messages := by
  unfold order_from
  rw [List.filter_cons_of_neg (by simpa using h)]

theorem sort_from_cons : sort_from order (msg :: messages) =
    { msg with content_blocks := if msg.role = .user then msg.content_blocks.map (sort_blocks order) else msg.content_blocks } ::
      sort_from (order_from order [msg]) messages := by
  rw [sort_from]
  by_cases hc : msg.role = .assistant ∧ msg.tool_calls ≠ []
  · have hu : msg.role ≠ .user := by simp [hc.1]
    rw [if_pos hc, order_from_calls hc, if_neg hu]
    rfl
  · rw [if_neg hc, order_from_other hc]
    by_cases hu : msg.role = .user
    · simp [hu, order_from]
    · simp [hu, order_from]

theorem sort_from_getElem? (hm : messages[i]? = some m) : ∃ m', (sort_from order messages)[i]? = some m' ∧
    m' = { m with content_blocks := m'.content_blocks } ∧ (m.role ≠ .user → m' = m) ∧
    InCallOrder (order_from order (messages.take i)) (blocks m) (blocks m') := by
  induction messages generalizing order i with
  | nil => cases hm
  | cons msg messages ih =>
    rw [sort_from_cons]
    cases i with
    | zero =>
      obtain rfl : msg = m := Option.some.inj hm
      refine ⟨_, rfl, rfl, fun hu => by rw [if_neg hu], ?_⟩
      by_cases hu : msg.role = .user
      · have hsort : blocks { msg with content_blocks := msg.content_blocks.map (sort_blocks order) } =
            sort_blocks order (blocks msg) := by
          cases hb : msg.content_blocks <;> simp [blocks, hu, hb, sort_blocks_nil]
        rw [if_pos hu, hsort]
        exact sort_blocks_spec order (blocks msg)
      · rw [if_neg hu, blocks_of_ne_user hu]
        have hnil := sort_blocks_spec order []
        rwa [sort_blocks_nil] at hnil
    | succ i =>
      have hi : messages[i]? = some m := hm
      obtain ⟨m', hm', hrest⟩ := @ih (order_from order [msg]) i hi
      refine ⟨m', hm', ?_⟩
      have horder : order_from order ((msg :: messages).take (i + 1)) = order_from (order_from order [msg]) (messages.take i) := by
        rw [List.take_succ_cons]
        by_cases hc : msg.role = .assistant ∧ msg.tool_calls ≠ []
        · rw [order_from_calls hc, order_from_calls hc]
          rfl
        · rw [order_from_other hc, order_from_other hc]
          rfl
      rw [horder]
      exact hrest

/-- **Tool results stay in their turn.** Merging leaves what the messages give in its order, and
sorting moves results only, within one message, into the order of the last calls before it. -/
theorem tool_results_in_call_order (messages : List Message) :
    (merge_tool_messages messages).flatMap blocks = messages.filterMap given ∧
      ∀ i m, (merge_tool_messages messages)[i]? = some m →
        ∃ m', (sort_tool_results_by_call_order (merge_tool_messages messages))[i]? = some m' ∧
          m' = { m with content_blocks := m'.content_blocks } ∧ (m.role ≠ .user → m' = m) ∧
          InCallOrder (order_from [] ((merge_tool_messages messages).take i)) (blocks m) (blocks m') :=
  ⟨merge_blocks, fun _ _ hm => sort_from_getElem? hm⟩

end

end AiroAgent.DeepseekV4
