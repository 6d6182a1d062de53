import AiroAgent.Lib.Text
import Mathlib.Algebra.Order.Round
import Mathlib.Data.Int.Log
import Mathlib.Data.Rat.Floor
import Mathlib.Tactic.Linarith
import Mathlib.Tactic.NormNum

/-!
# Doubles

The finite numbers of the IEEE 754 double format as rationals, the rounding to
them, and the reading of decimal texts.
-/

namespace Double

/-! ## Rounding -/

/-- To the nearest integer, ties to the even one. -/
def round_even (x : ℚ) : ℤ :=
  if x - ⌊x⌋ < 1 / 2 ∨ x - ⌊x⌋ = 1 / 2 ∧ ⌊x⌋ % 2 = 0 then ⌊x⌋ else ⌊x⌋ + 1

/-- The distance of the doubles around `q`: 53 binary digits, fewer among the smallest. -/
def ulp (q : ℚ) : ℚ := 2 ^ max (Int.log 2 |q| - 52) (-1074)

def round (q : ℚ) : ℚ := round_even (q / ulp q) * ulp q

/-- The double nearest to `q`, unless it is past the largest. -/
def nearest (q : ℚ) : Option ℚ := if |round q| < 2 ^ 1024 then some (round q) else none

theorem ulp_pos (q : ℚ) : 0 < ulp q := zpow_pos (by norm_num) _

theorem abs_round_even_sub_le (x : ℚ) : |round_even x - x| ≤ 1 / 2 := by
  have hle : (⌊x⌋ : ℚ) ≤ x := Int.floor_le x
  have hlt : x < ⌊x⌋ + 1 := Int.lt_floor_add_one x
  rw [abs_le, round_even]
  split
  · next h =>
    have hhalf : x - ⌊x⌋ ≤ 1 / 2 := h.elim le_of_lt fun he => he.1.le
    constructor <;> linarith
  · next h =>
    rw [not_or, not_lt] at h
    push_cast
    constructor <;> linarith [h.1]

theorem abs_round_sub_le (q : ℚ) : |round q - q| ≤ ulp q / 2 := by
  have hu := ulp_pos q
  have hq : q = q / ulp q * ulp q := (div_mul_cancel₀ q hu.ne').symm
  calc |round q - q| = |(round_even (q / ulp q) - q / ulp q) * ulp q| := by rw [sub_mul, ← hq, round]
    _ = |round_even (q / ulp q) - q / ulp q| * ulp q := by rw [abs_mul, abs_of_pos hu]
    _ ≤ 1 / 2 * ulp q := mul_le_mul_of_nonneg_right (abs_round_even_sub_le _) hu.le
    _ = ulp q / 2 := by ring

theorem ulp_le {q : ℚ} (h : |q| ≤ 2 ^ 1023) : ulp q ≤ 2 ^ 971 := by
  have hlog : Int.log 2 |q| ≤ 1023 := by
    rcases eq_or_lt_of_le (abs_nonneg q) with hq | hq
    · simp [← hq]
    · have hmono : Int.log 2 |q| ≤ Int.log 2 ((2 : ℕ) ^ (1023 : ℤ) : ℚ) := Int.log_mono_right hq (by exact_mod_cast h)
      rwa [Int.log_zpow (by norm_num)] at hmono
  have hmax : max (Int.log 2 |q| - 52) (-1074) ≤ 971 := by omega
  have hpow : ulp q ≤ 2 ^ (971 : ℤ) := zpow_le_zpow_right₀ (by norm_num) hmax
  exact_mod_cast hpow

/-- Nothing up to half of the largest double is out of range. -/
theorem nearest_of_le {q : ℚ} (h : |q| ≤ 2 ^ 1023) : nearest q = some (round q) := by
  have hround : |round q| ≤ |q| + ulp q / 2 := by
    have htri : |round q| - |q| ≤ |round q - q| := abs_sub_abs_le_abs_sub _ _
    linarith [abs_round_sub_le q]
  have hulp : ulp q ≤ 2 ^ 1023 := (ulp_le h).trans (pow_le_pow_right₀ (by norm_num) (by norm_num))
  have hpos : (0 : ℚ) < 2 ^ 1023 := pow_pos (by norm_num) _
  have hlt : |round q| < 2 ^ 1024 := by
    rw [pow_succ]
    generalize (2 : ℚ) ^ 1023 = half at *
    linarith
  rw [nearest, if_pos hlt]

theorem round_even_int (n : ℤ) : round_even n = n := by
  rw [round_even, Int.floor_intCast, if_pos (.inl (by norm_num))]

/-- A whole number of at most 53 binary digits is a double, and so is each of its multiples by
powers of two that are not too small. -/
theorem round_of_significand {n e : ℤ} (hn : |n| < 2 ^ 53) (he : -1074 ≤ e) : round (n * 2 ^ e) = n * 2 ^ e := by
  by_cases h0 : n = 0
  · simp [h0, round, round_even]
  have hpow : (0 : ℚ) < 2 ^ e := zpow_pos (by norm_num) e
  have hulp : ∃ m : ℤ, m ≤ e ∧ ulp (n * 2 ^ e) = 2 ^ m := by
    refine ⟨max (Int.log 2 |(n * 2 ^ e : ℚ)| - 52) (-1074), ?_, rfl⟩
    have hlog : Int.log 2 |(n * 2 ^ e : ℚ)| < 53 + e := by
      have habs : (0 : ℚ) < |(n * 2 ^ e : ℚ)| := abs_pos.mpr (mul_ne_zero (by exact_mod_cast h0) hpow.ne')
      rw [← Int.lt_zpow_iff_log_lt (by norm_num) habs, abs_mul, abs_of_pos hpow, Nat.cast_ofNat, zpow_add₀ (by norm_num)]
      refine mul_lt_mul_of_pos_right ?_ hpow
      exact_mod_cast hn
    omega
  obtain ⟨m, hm, hu⟩ := hulp
  have hpos : (0 : ℚ) < 2 ^ m := zpow_pos (by norm_num) m
  -- in units of its own last place it is whole, and a whole number is not rounded
  have hint : (n * 2 ^ e / 2 ^ m : ℚ) = ((n * 2 ^ (e - m).toNat : ℤ) : ℚ) := by
    have hcast : (2 : ℚ) ^ e = 2 ^ (e - m).toNat * 2 ^ m := by
      rw [← zpow_natCast, Int.toNat_of_nonneg (by omega), ← zpow_add₀ (by norm_num), sub_add_cancel]
    push_cast
    rw [hcast, ← mul_assoc, mul_div_cancel_right₀ _ hpos.ne']
  rw [round, hu, hint, round_even_int, ← hint, div_mul_cancel₀ _ hpos.ne']

theorem nearest_of_significand {n e : ℤ} (hn : |n| < 2 ^ 53) (he : -1074 ≤ e) (he' : e ≤ 970) : nearest (n * 2 ^ e) = some (n * 2 ^ e : ℚ) := by
  have hpow : (0 : ℚ) < 2 ^ e := zpow_pos (by norm_num) e
  have habs : |(n * 2 ^ e : ℚ)| ≤ 2 ^ 1023 := by
    have hle : (2 : ℚ) ^ e ≤ 2 ^ (970 : ℤ) := zpow_le_zpow_right₀ (by norm_num) he'
    have hn' : |(n : ℚ)| ≤ 2 ^ 53 := by exact_mod_cast hn.le
    rw [abs_mul, abs_of_pos hpow]
    calc |(n : ℚ)| * 2 ^ e ≤ 2 ^ 53 * 2 ^ (970 : ℤ) := mul_le_mul hn' hle hpow.le (by norm_num)
      _ = 2 ^ 1023 := by rw [← zpow_natCast, ← zpow_natCast, ← zpow_add₀ (by norm_num)]; rfl
  rw [nearest_of_le habs, round_of_significand hn he]

/-! ## Decimal texts -/

/-- A point with a digit behind it, and all the digits there. -/
def parse_fraction : List Char → List Char × List Char
  | '.' :: cs =>
    match cs.takeWhile Char.isDigit with
    | [] => ([], '.' :: cs)
    | ds => (ds, cs.dropWhile Char.isDigit)
  | cs => ([], cs)

def parse_exponent : List Char → Int × List Char
  | [] => (0, [])
  | c :: cs =>
    match c == 'e' || c == 'E', Text.parse_int cs with
    | true, some r => r
    | _, _ => (0, c :: cs)

def parse_unsigned (cs : List Char) : Option (ℚ × List Char) :=
  match cs.takeWhile Char.isDigit with
  | [] => none
  | ds =>
    let (fs, rest) := parse_fraction (cs.dropWhile Char.isDigit)
    let (e, rest) := parse_exponent rest
    (nearest (Nat.ofDigitChars 10 (ds ++ fs) 0 * 10 ^ (e - fs.length))).map (·, rest)

/-- The number at the front of a text, and what follows it. -/
def parse : List Char → Option (ℚ × List Char)
  | '-' :: cs => (parse_unsigned cs).map fun r => (-r.1, r.2)
  | '+' :: cs => parse_unsigned cs
  | cs => parse_unsigned cs

/-- A number written with decimal digits, and a point where it has a fraction. -/
structure Numeral where
  negative : Bool
  whole : List Char
  fraction : List Char
  nonempty : whole ≠ []
  digits : ∀ c ∈ whole ++ fraction, c.isDigit = true

namespace Numeral

def unsigned_text (d : Numeral) : List Char := d.whole ++ if d.fraction = [] then [] else '.' :: d.fraction

def text (d : Numeral) : String := String.ofList (if d.negative then '-' :: d.unsigned_text else d.unsigned_text)

def magnitude (d : Numeral) : ℚ := Nat.ofDigitChars 10 (d.whole ++ d.fraction) 0 * 10 ^ (-d.fraction.length : ℤ)

end Numeral

/-- The double a numeral stands for. -/
def of_numeral (d : Numeral) : Option ℚ := (nearest d.magnitude).map fun v => if d.negative then -v else v

theorem span_digits (ds rest : List Char) (h : ∀ c ∈ ds, c.isDigit = true) (hrest : ∀ c ∈ rest.head?, c.isDigit = false) :
    (ds ++ rest).takeWhile Char.isDigit = ds ∧ (ds ++ rest).dropWhile Char.isDigit = rest := by
  rw [List.takeWhile_append_of_pos h, List.dropWhile_append_of_pos h]
  cases rest with
  | nil => simp
  | cons c cs =>
    have hc : c.isDigit = false := hrest c rfl
    simp [hc]

theorem parse_fraction_digits {ds : List Char} (h : ∀ c ∈ ds, c.isDigit = true) :
    parse_fraction (if ds = [] then [] else '.' :: ds) = (ds, []) := by
  cases ds with
  | nil => rfl
  | cons c cs =>
    obtain ⟨htake, hdrop⟩ := span_digits (c :: cs) [] h (by simp)
    rw [List.append_nil] at htake hdrop
    rw [if_neg (List.cons_ne_nil c cs), parse_fraction, htake, hdrop]

theorem parse_unsigned_numeral (d : Numeral) : parse_unsigned d.unsigned_text = (nearest d.magnitude).map (·, []) := by
  have hwhole : ∀ c ∈ d.whole, c.isDigit = true := fun c hc => d.digits c (List.mem_append_left _ hc)
  have hfraction : ∀ c ∈ d.fraction, c.isDigit = true := fun c hc => d.digits c (List.mem_append_right _ hc)
  have hpoint : ∀ c ∈ (if d.fraction = [] then [] else '.' :: d.fraction).head?, c.isDigit = false := by
    split
    · simp
    · simp
  obtain ⟨htake, hdrop⟩ := span_digits _ _ hwhole hpoint
  rw [parse_unsigned, Numeral.unsigned_text, htake, hdrop, parse_fraction_digits hfraction]
  split
  · next hnil => exact absurd hnil d.nonempty
  · simp only [parse_exponent, zero_sub]
    rfl

theorem digit_of_unsigned_text {d : Numeral} {c : Char} {cs : List Char} (h : d.unsigned_text = c :: cs) :
    c.isDigit = true := by
  rw [Numeral.unsigned_text] at h
  cases hw : d.whole with
  | nil => exact absurd hw d.nonempty
  | cons x xs =>
    rw [hw, List.cons_append] at h
    obtain ⟨rfl, -⟩ := List.cons.inj h
    exact d.digits x (by simp [hw])

theorem parse_text (d : Numeral) : parse d.text.toList = (of_numeral d).map (·, []) := by
  rw [Numeral.text, String.toList_ofList, of_numeral]
  cases hneg : d.negative with
  | true => simp [parse, parse_unsigned_numeral, Function.comp_def]
  | false =>
    -- a text that starts with a digit starts with neither sign
    have hminus : ∀ cs, d.unsigned_text = '-' :: cs → False := fun _ h => absurd (digit_of_unsigned_text h) (by decide)
    have hplus : ∀ cs, d.unsigned_text = '+' :: cs → False := fun _ h => absurd (digit_of_unsigned_text h) (by decide)
    simp only [Bool.false_eq_true, if_false]
    rw [parse.eq_3 _ hminus hplus, parse_unsigned_numeral]
    simp

end Double
