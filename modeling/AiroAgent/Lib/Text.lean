import Mathlib.Algebra.GroupWithZero.Nat
import Mathlib.Data.List.DropRight
import Mathlib.Data.List.Infix
import Mathlib.Data.List.TakeWhile

/-!
# Text

Strings as lists of characters: trimming, splitting on a separator and reading
integers, with what a reader gets back from the matching writer.
-/

namespace Text

/-! ## Searching -/

def contains (s pat : String) : Bool := decide (pat.toList <:+: s.toList)

def starts_with (s pat : String) : Bool := pat.toList.isPrefixOf s.toList

def ends_with (s pat : String) : Bool := pat.toList.isSuffixOf s.toList

theorem ne_empty_of_mem {s : String} {c : Char} (h : c ∈ s.toList) : s ≠ "" := by
  rintro rfl
  cases h

/-- A pattern without `c` lies on one side of it. -/
theorem infix_append_cons {α : Type} {c : α} {pat l r : List α} (h : c ∉ pat) :
    pat <:+: l ++ c :: r ↔ pat <:+: l ∨ pat <:+: r := by
  constructor
  · intro hin
    obtain ⟨s, t, hst⟩ := hin
    obtain ⟨a, rfl, rfl⟩ | ⟨a, hs, ht⟩ := List.append_eq_append_iff.mp hst
    · exact .inl ⟨s, a, rfl⟩
    · cases a with
      | nil => exact .inl ⟨s, [], by simpa using hs⟩
      | cons x a =>
        obtain ⟨rfl, rfl⟩ := List.cons.inj ht
        obtain ⟨b, -, hb⟩ | ⟨b, rfl, hb⟩ := List.append_eq_append_iff.mp hs
        · exact absurd (hb ▸ List.mem_append_right b List.mem_cons_self) h
        · cases b with
          | nil =>
            rw [List.nil_append] at hb
            exact absurd (hb ▸ List.mem_cons_self) h
          | cons y b =>
            obtain ⟨rfl, rfl⟩ := List.cons.inj hb
            exact .inr ⟨b, t, by simp⟩
  · intro hin
    obtain hl | hr := hin
    · exact hl.trans (List.infix_append' [] l (c :: r))
    · exact hr.trans ⟨l ++ [c], [], by simp⟩

/-! ## Trimming -/

/-- The Unicode property White_Space. -/
def is_space (c : Char) : Bool :=
  let n := c.toNat
  (9 ≤ n && n ≤ 13) || n == 0x20 || n == 0x85 || n == 0xA0 || n == 0x1680 ||
    (0x2000 ≤ n && n ≤ 0x200A) || n == 0x2028 || n == 0x2029 || n == 0x202F || n == 0x205F || n == 0x3000

def trim (s : String) : String := String.ofList ((s.toList.dropWhile is_space).rdropWhile is_space)

theorem trim_of_no_space {s : String} (h : ∀ c ∈ s.toList, is_space c = false) : trim s = s := by
  have hfront : s.toList.dropWhile is_space = s.toList := by
    rw [List.dropWhile_eq_self_iff]
    intro hl
    simp [h _ (List.getElem_mem hl)]
  have hback : s.toList.rdropWhile is_space = s.toList := by
    rw [List.rdropWhile_eq_self_iff]
    intro hl
    simp [h _ (List.getLast_mem hl)]
  rw [trim, hfront, hback, String.ofList_toList]

theorem rdropWhile_cons {α : Type} {p : α → Bool} {x : α} {l : List α} :
    (x :: l).rdropWhile p = if l.rdropWhile p = [] ∧ p x = true then [] else x :: l.rdropWhile p := by
  simp only [List.rdropWhile, List.reverse_cons, List.dropWhile_append, List.reverse_eq_nil_iff]
  by_cases hl : l.reverse.dropWhile p = []
  · by_cases hx : p x = true
    · simp [hl, hx]
    · simp [hl, hx]
  · simp [hl]

theorem dropWhile_rdropWhile {α : Type} {p : α → Bool} {l : List α} :
    (l.rdropWhile p).dropWhile p = (l.dropWhile p).rdropWhile p := by
  induction l with
  | nil => rfl
  | cons x l ih =>
    by_cases hx : p x = true
    · rw [List.dropWhile_cons_of_pos hx, ← ih, rdropWhile_cons]
      by_cases hl : l.rdropWhile p = []
      · rw [if_pos ⟨hl, hx⟩, hl]
      · rw [if_neg fun h => hl h.1, List.dropWhile_cons_of_pos hx]
    · rw [List.dropWhile_cons_of_neg hx, rdropWhile_cons, if_neg fun h => hx h.2, List.dropWhile_cons_of_neg hx]

theorem trim_break (s : String) : trim (s ++ "\n") = trim s := by
  have htext : (s ++ "\n").toList = s.toList ++ ['\n'] := by simp
  rw [trim, trim, htext, ← dropWhile_rdropWhile, ← dropWhile_rdropWhile, List.rdropWhile_concat_pos is_space s.toList '\n' rfl]

/-! ## Splitting -/

def fields (sep : Char) (s : String) : List String := (s.toList.splitOn sep).map String.ofList

def join (sep : Char) (l : List String) : String := (String.singleton sep).intercalate l

theorem fields_join {sep : Char} {l : List String} (hl : l ≠ []) (h : ∀ s ∈ l, sep ∉ s.toList) :
    fields sep (join sep l) = l := by
  have hmap : ∀ t ∈ l.map String.toList, sep ∉ t := by
    intro t ht
    obtain ⟨s, hs, rfl⟩ := List.mem_map.mp ht
    exact h s hs
  rw [fields, join, String.toList_intercalate, String.toList_singleton,
    List.splitOn_intercalate sep hmap (by simpa using hl)]
  simp [Function.comp_def]

/-- A separator within an entry splits it like the ones between entries. -/
theorem fields_join_flatMap {sep : Char} : ∀ {l : List String}, l ≠ [] → fields sep (join sep l) = l.flatMap (fields sep)
  | [], h => absurd rfl h
  | [s], _ => by simp [join]
  | s :: t :: l, _ => by
    have ih : fields sep (join sep (t :: l)) = (t :: l).flatMap (fields sep) := fields_join_flatMap (List.cons_ne_nil _ _)
    rw [List.flatMap_cons, ← ih]
    unfold fields join
    rw [String.intercalate_cons_cons, String.toList_append, String.toList_append, String.toList_singleton,
      List.append_assoc, List.singleton_append, List.splitOn_append_cons_self, List.map_append]

theorem not_mem_splitOn {α : Type} [DecidableEq α] {sep : α} {l t : List α} (h : t ∈ l.splitOn sep) : sep ∉ t := by
  induction l generalizing t with
  | nil =>
    rw [List.splitOn_nil, List.mem_singleton] at h
    simp [h]
  | cons x l ih =>
    rw [List.splitOn_cons_eq_if_modifyHead] at h
    by_cases hx : x = sep
    · simp only [hx, beq_self_eq_true, if_true, List.mem_cons] at h
      obtain rfl | h := h
      · simp
      · exact ih h
    · rw [if_neg (by simpa using hx)] at h
      cases hs : l.splitOn sep with
      | nil => exact absurd hs (List.splitOn_ne_nil _ _)
      | cons u us =>
        rw [hs, List.modifyHead_cons, List.mem_cons] at h
        obtain rfl | h := h
        · have := ih (t := u) (by rw [hs]; exact List.mem_cons_self ..)
          simp [Ne.symm hx, this]
        · exact ih (by rw [hs]; exact List.mem_cons_of_mem _ h)

theorem not_mem_fields {sep : Char} {s t : String} (h : t ∈ fields sep s) : sep ∉ t.toList := by
  obtain ⟨cs, hcs, rfl⟩ := List.mem_map.mp h
  rw [String.toList_ofList]
  exact not_mem_splitOn hcs

theorem not_mem_join {sep c : Char} (hc : c ≠ sep) : ∀ {l : List String}, (∀ s ∈ l, c ∉ s.toList) →
    c ∉ (join sep l).toList
  | [], _ => by simp [join]
  | [s], h => by simpa [join] using h s List.mem_cons_self
  | s :: t :: l, h => by
    have ih : c ∉ (join sep (t :: l)).toList := not_mem_join hc fun u hu => h u (List.mem_cons_of_mem s hu)
    rw [join, String.intercalate_cons_cons, String.toList_append, String.toList_append, String.toList_singleton]
    simp only [List.mem_append, List.mem_singleton, not_or]
    exact ⟨⟨h s List.mem_cons_self, hc⟩, ih⟩

theorem mem_join {sep c : Char} {s : String} (hc : c ∈ s.toList) : ∀ {l : List String}, s ∈ l → c ∈ (join sep l).toList
  | [t], h => by
    rw [List.mem_singleton] at h
    simpa [join, ← h] using hc
  | t :: u :: l, h => by
    rw [join, String.intercalate_cons_cons, String.toList_append, String.toList_append, List.mem_append, List.mem_append]
    obtain rfl | h := List.mem_cons.mp h
    · exact .inl (.inl hc)
    · exact .inr (mem_join hc h)

/-- What is dropped in front of a list is dropped in front of its first part. -/
theorem splitOn_dropWhile {α : Type} [DecidableEq α] {p : α → Bool} {sep : α} {l : List α} (h : p sep = false) :
    ((l.dropWhile p).splitOn sep).map (List.dropWhile p) = (l.splitOn sep).map (List.dropWhile p) := by
  induction l with
  | nil => rfl
  | cons x l ih =>
    by_cases hx : p x = true
    · have hsep : (x == sep) = false := by
        rw [beq_eq_false_iff_ne]
        rintro rfl
        rw [h] at hx
        cases hx
      rw [List.dropWhile_cons_of_pos hx, ih, List.splitOn_cons_eq_if_modifyHead, hsep, if_neg (by decide)]
      cases l.splitOn sep with
      | nil => rfl
      | cons t ts => simp [hx]
    · rw [List.dropWhile_cons_of_neg hx]

theorem splitOn_rdropWhile {α : Type} [DecidableEq α] {p : α → Bool} {sep : α} {l : List α} (h : p sep = false) :
    ((l.rdropWhile p).splitOn sep).map (List.rdropWhile p) = (l.splitOn sep).map (List.rdropWhile p) := by
  -- trimming a part behind one more element is a matter of that element and of the trimmed part
  have hhead : ∀ (x : α) {ls ms : List (List α)}, ls.map (List.rdropWhile p) = ms.map (List.rdropWhile p) →
      (ls.modifyHead (List.cons x)).map (List.rdropWhile p) = (ms.modifyHead (List.cons x)).map (List.rdropWhile p) := by
    intro x ls ms heq
    cases ls with
    | nil => cases ms with
      | nil => rfl
      | cons m ms => cases heq
    | cons l ls => cases ms with
      | nil => cases heq
      | cons m ms =>
        rw [List.map_cons, List.map_cons, List.cons.injEq] at heq
        simp only [List.modifyHead_cons, List.map_cons, rdropWhile_cons, heq]
  induction l with
  | nil => rfl
  | cons x l ih =>
    by_cases hsep : x = sep
    · subst hsep
      rw [rdropWhile_cons, if_neg (by simp [h]), List.splitOn_cons_eq_if_modifyHead, List.splitOn_cons_eq_if_modifyHead,
        if_pos (beq_self_eq_true x), if_pos (beq_self_eq_true x), List.map_cons, ih, List.map_cons]
    · have hsep : ¬ (x == sep) = true := by simpa using hsep
      rw [List.splitOn_cons_eq_if_modifyHead x l, if_neg hsep, ← hhead x ih, rdropWhile_cons]
      split
      · next hnil =>
        rw [hnil.1]
        simp [rdropWhile_cons, hnil.2]
      · rw [List.splitOn_cons_eq_if_modifyHead, if_neg hsep]

theorem fields_trim {sep : Char} (s : String) (h : is_space sep = false) :
    (fields sep (trim s)).map trim = (fields sep s).map trim := by
  have hback : ∀ l : List (List Char), (l.map String.ofList).map trim =
      ((l.map (List.rdropWhile is_space)).map (List.dropWhile is_space)).map String.ofList := by
    intro l
    simp [trim, dropWhile_rdropWhile]
  have hfront : ∀ l : List (List Char), (l.map (List.rdropWhile is_space)).map (List.dropWhile is_space) =
      (l.map (List.dropWhile is_space)).map (List.rdropWhile is_space) := by
    intro l
    simp [dropWhile_rdropWhile]
  rw [fields, fields, hback, hback, trim, String.toList_ofList, splitOn_rdropWhile h, hfront, splitOn_dropWhile h, ← hfront]

theorem length_splitOn {α : Type} [DecidableEq α] {sep : α} (l : List α) : (l.splitOn sep).length = l.count sep + 1 := by
  induction l with
  | nil => rfl
  | cons x l ih =>
    rw [List.splitOn_cons_eq_if_modifyHead, List.count_cons]
    split
    · simp [ih]
    · simp [ih]

theorem length_fields {sep : Char} (s : String) : (fields sep s).length = s.toList.count sep + 1 := by
  rw [fields, List.length_map, length_splitOn]

theorem count_join {sep c : Char} (hc : c ≠ sep) : ∀ l : List String,
    (join sep l).toList.count c = (l.map (·.toList.count c)).sum
  | [] => by simp [join]
  | [s] => by simp [join]
  | s :: t :: l => by
    have ih := count_join hc (t :: l)
    rw [join] at ih ⊢
    rw [String.intercalate_cons_cons, String.toList_append, String.toList_append, String.toList_singleton, List.count_append,
      List.count_append, ih, List.count_singleton, List.map_cons, List.sum_cons]
    simp [Ne.symm hc]

def cut (sep : Char) (s : String) : String × String :=
  (String.ofList (s.toList.takeWhile (· ≠ sep)), String.ofList ((s.toList.dropWhile (· ≠ sep)).drop 1))

theorem cut_append {sep : Char} {a b : String} (h : sep ∉ a.toList) :
    cut sep (a ++ String.singleton sep ++ b) = (a, b) := by
  have hne : ∀ c ∈ a.toList, decide (c ≠ sep) = true := fun c hc => decide_eq_true fun e => h (e ▸ hc)
  have htext : (a ++ String.singleton sep ++ b).toList = a.toList ++ sep :: b.toList := by simp
  rw [cut, htext, List.takeWhile_append_of_pos hne, List.dropWhile_append_of_pos hne]
  simp

theorem not_mem_cut {sep : Char} {s : String} : sep ∉ (cut sep s).1.toList := by
  intro h
  rw [cut, String.toList_ofList] at h
  simpa using List.mem_takeWhile_imp h

theorem mem_of_mem_cut_fst {sep c : Char} {s : String} (h : c ∈ (cut sep s).1.toList) : c ∈ s.toList := by
  rw [cut, String.toList_ofList] at h
  exact (List.takeWhile_sublist _).mem h

theorem mem_of_mem_cut_snd {sep c : Char} {s : String} (h : c ∈ (cut sep s).2.toList) : c ∈ s.toList := by
  rw [cut, String.toList_ofList] at h
  exact (List.dropWhile_sublist _).mem (List.mem_of_mem_drop h)

def lines (s : String) : List String := (fields '\n' s).filter (· ≠ "")

theorem lines_join {l : List String} (hl : l ≠ []) : lines (join '\n' l) = l.flatMap lines := by
  unfold lines
  rw [fields_join_flatMap hl, List.filter_flatMap]

theorem not_mem_lines {s t : String} (h : t ∈ lines s) : '\n' ∉ t.toList := not_mem_fields (List.mem_of_mem_filter h)

theorem lines_of_not_mem {s : String} (h : '\n' ∉ s.toList) (hs : s ≠ "") : lines s = [s] := by
  simp [lines, fields, List.splitOn_eq_singleton h, hs]

def unlines (l : List String) : String := String.join (l.map (· ++ "\n"))

theorem fields_unlines : ∀ {l : List String}, (∀ s ∈ l, '\n' ∉ s.toList) → fields '\n' (unlines l) = l ++ [""]
  | [], _ => rfl
  | s :: l, h => by
    have hs : '\n' ∉ s.toList := h s List.mem_cons_self
    have ih := fields_unlines (l := l) fun t ht => h t (List.mem_cons_of_mem s ht)
    have htext : (unlines (s :: l)).toList = s.toList ++ '\n' :: (unlines l).toList := by
      simp [unlines]
    rw [fields, htext, List.splitOn_append_cons_self_of_not_mem hs, List.map_cons, String.ofList_toList]
    exact congrArg (s :: ·) ih

theorem lines_unlines {l : List String} (h : ∀ s ∈ l, '\n' ∉ s.toList) : lines (unlines l) = l.filter (· ≠ "") := by
  simp [lines, fields_unlines h]

/-! ## Integers -/

def parse_nat (cs : List Char) : Option (Nat × List Char) :=
  match cs.takeWhile Char.isDigit with
  | [] => none
  | ds => some (Nat.ofDigitChars 10 ds 0, cs.dropWhile Char.isDigit)

/-- An optional sign, then digits. -/
def parse_int : List Char → Option (Int × List Char)
  | '-' :: cs => (parse_nat cs).map fun r => (-(r.1 : Int), r.2)
  | '+' :: cs => (parse_nat cs).map fun r => ((r.1 : Int), r.2)
  | cs => (parse_nat cs).map fun r => ((r.1 : Int), r.2)

theorem digit_of_mem {n : Nat} {c : Char} (h : c ∈ Nat.toDigits 10 n) : c.isDigit = true :=
  Nat.isDigit_of_mem_toDigits (by decide) (by decide) h

theorem parse_nat_toDigits (n : Nat) : parse_nat (Nat.toDigits 10 n) = some (n, []) := by
  have htake : (Nat.toDigits 10 n).takeWhile Char.isDigit = Nat.toDigits 10 n :=
    List.takeWhile_eq_self_iff.mpr fun c hc => digit_of_mem hc
  have hdrop : (Nat.toDigits 10 n).dropWhile Char.isDigit = [] :=
    List.dropWhile_eq_nil_iff.mpr fun c hc => digit_of_mem hc
  rw [parse_nat, htake, hdrop]
  split
  · next h => exact absurd h Nat.toDigits_ne_nil
  · rw [Nat.ofDigitChars_ten_toDigits]

theorem toList_toString (n : Int) :
    (toString n).toList = if 0 ≤ n then Nat.toDigits 10 n.toNat else '-' :: Nat.toDigits 10 (-n).toNat := by
  rw [Int.toString_eq_repr, Int.repr_eq_if]
  split <;> simp

theorem parse_int_toString (n : Int) : parse_int (toString n).toList = some (n, []) := by
  rw [toList_toString]
  by_cases h : 0 ≤ n
  · rw [if_pos h]
    have hparse := parse_nat_toDigits n.toNat
    cases hd : Nat.toDigits 10 n.toNat with
    | nil => exact absurd hd Nat.toDigits_ne_nil
    | cons c cs =>
      have hc : c.isDigit = true := digit_of_mem (hd ▸ List.mem_cons_self)
      rw [hd] at hparse
      -- a digit is neither sign, so the third arm reads the whole list
      have hminus : c ≠ '-' := by rintro rfl; exact absurd hc (by decide)
      have hplus : c ≠ '+' := by rintro rfl; exact absurd hc (by decide)
      rw [parse_int.eq_3 _ (by simpa using hminus) (by simpa using hplus), hparse]
      simp [Int.toNat_of_nonneg h]
  · rw [if_neg h]
    simp only [parse_int, parse_nat_toDigits, Option.map_some]
    congr 2
    omega

theorem not_space_of_digit {c : Char} (h : c.isDigit = true) : is_space c = false := by
  have hrange : 48 ≤ c.toNat ∧ c.toNat ≤ 57 := by
    simp only [Char.isDigit, Bool.and_eq_true, decide_eq_true_eq, ge_iff_le, UInt32.le_iff_toNat_le] at h
    exact h
  simp only [is_space]
  grind

theorem mem_toString {n : Int} {c : Char} (h : c ∈ (toString n).toList) : c = '-' ∨ c.isDigit = true := by
  rw [toList_toString] at h
  split at h
  · exact .inr (digit_of_mem h)
  · exact (List.mem_cons.mp h).imp_right digit_of_mem

theorem not_space_of_mem_toString {n : Int} {c : Char} (h : c ∈ (toString n).toList) : is_space c = false := by
  rcases mem_toString h with rfl | hd
  · decide
  · exact not_space_of_digit hd

theorem trim_toString (n : Int) : trim (toString n) = toString n :=
  trim_of_no_space fun _ hc => not_space_of_mem_toString hc

theorem toString_ne {n : Int} {s : String} {c : Char} (hc : c ∈ s.toList) (hsign : c ≠ '-') (hd : c.isDigit = false) :
    toString n ≠ s := by
  intro h
  rcases mem_toString (h ▸ hc) with rfl | hc
  · exact hsign rfl
  · rw [hd] at hc
    cases hc

theorem toString_ne_empty (n : Int) : toString n ≠ "" := by
  intro h
  have hparse := parse_int_toString n
  rw [h] at hparse
  cases hparse

/-! ## Padded numbers -/

/-- `%0<width>d`. -/
def pad (width n : Nat) : String := String.ofList ((Nat.toDigits 10 n).leftpad width '0')

theorem digit_of_mem_pad {width n : Nat} {c : Char} (h : c ∈ (pad width n).toList) : c.isDigit = true := by
  rw [pad, String.toList_ofList, List.leftpad, List.mem_append] at h
  obtain h | h := h
  · rw [List.eq_of_mem_replicate h]
    decide
  · exact digit_of_mem h

theorem ofDigitChars_pad (width n : Nat) : Nat.ofDigitChars 10 (pad width n).toList 0 = n := by
  rw [pad, String.toList_ofList, List.leftpad, Nat.ofDigitChars_append, Nat.ofDigitChars_replicate_zero, Nat.mul_zero,
    Nat.ofDigitChars_ten_toDigits]

theorem pad_inj {width m n : Nat} (h : pad width m = pad width n) : m = n := by
  rw [← ofDigitChars_pad width m, h, ofDigitChars_pad]

theorem pad_digit {width n : Nat} (h : n < 10) :
    (pad (width + 1) n).toList = List.replicate width '0' ++ [n.digitChar] := by
  rw [pad, String.toList_ofList, List.leftpad, Nat.toDigits_of_lt_base h]
  simp

/-! ## Words -/

/-- White space other than the non-breaking kinds. -/
def is_break (c : Char) : Bool := is_space c && c.toNat != 0xA0 && c.toNat != 0x2007 && c.toNat != 0x202F

def words (s : String) : List String := ((s.toList.splitOnP is_break).filter (· ≠ [])).map String.ofList

theorem words_unlines {l : List String} (h : ∀ s ∈ l, s ≠ "" ∧ ∀ c ∈ s.toList, is_break c = false) :
    words (unlines l) = l := by
  induction l with
  | nil => rfl
  | cons s l ih =>
    rw [List.forall_mem_cons] at h
    have htext : (unlines (s :: l)).toList = s.toList ++ '\n' :: (unlines l).toList := by simp [unlines]
    have ih := ih h.2
    unfold words at ih ⊢
    rw [htext, List.splitOnP_append_cons_of_forall_mem h.1.2 '\n' (by decide),
      List.filter_cons_of_pos (by simpa using h.1.1), List.map_cons, ih, String.ofList_toList]

end Text
