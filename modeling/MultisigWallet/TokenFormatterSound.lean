import MultisigWallet.Lib.Decimal
import MultisigWallet.Lib.Separated
import MultisigWallet.TokenFormatter
import Mathlib.Algebra.Order.Field.Rat
import Mathlib.Tactic.FieldSimp
import Mathlib.Tactic.NormNum

/-!
# MultisigWallet.TokenFormatterSound

What the formatter writes and reads, in terms of numbers. The digits of an amount split into those
of `|value| / 10 ^ precision` and the last `precision` ones, so cutting the fraction off truncates
the amount and taking digits off the integer part divides it; `string_short` is the whole short
format in these terms.

A text that is read falls apart at the last separator. Both parts are parsed as integers of their
own, sign included, and added up: the sign of the integer part does not reach the fraction, and a
fraction may bring a sign. `ParsedAsWritten` says for which texts that does not matter.
-/

namespace MultisigWallet

namespace TokenFormatter

/-! ### Groups -/

/-- The boundaries of groups of three. -/
def groupBoundaries (count : Nat) : List Nat := stride count 3 ++ [count]

/-- The ranges between them. -/
def groupRanges (count : Nat) : List (Nat × Nat) :=
  ((groupBoundaries count).zip (groupBoundaries count).tail).reverse

/-- The substring for a range. -/
def group (string : Str) (range : Nat × Nat) : Str :=
  (string.take (string.length - range.1)).drop (string.length - range.2)

theorem stride_add (n : Nat) : stride (n + 3) 3 = 0 :: (stride n 3).map (· + 3) := by
  have hcount : (n + 3 + 3 - 1) / 3 = (n + 3 - 1) / 3 + 1 := by omega
  rw [stride, stride, hcount, List.range_succ_eq_map, List.map_cons, List.map_map, List.map_map]
  congr 1
  refine List.map_congr_left fun k _ => ?_
  show (k + 1) * 3 = k * 3 + 3
  omega

theorem groupBoundaries_add (n : Nat) :
    groupBoundaries (n + 3) = 0 :: (groupBoundaries n).map (· + 3) := by
  rw [groupBoundaries, stride_add, groupBoundaries, List.map_append]
  rfl

theorem groupBoundaries_cons {n : Nat} (h : n ≠ 0) : ∃ rest, groupBoundaries n = 0 :: rest := by
  have hpos : (n + 3 - 1) / 3 = (n + 3 - 1) / 3 - 1 + 1 := by omega
  rw [groupBoundaries, stride, hpos, List.range_succ_eq_map]
  exact ⟨_, rfl⟩

/-- The ranges of a string that is three characters longer. -/
theorem groupRanges_add {n : Nat} (h : n ≠ 0) :
    groupRanges (n + 3) = (groupRanges n).map (Prod.map (· + 3) (· + 3)) ++ [(0, 3)] := by
  obtain ⟨rest, hrest⟩ := groupBoundaries_cons h
  unfold groupRanges
  rw [groupBoundaries_add, List.tail_cons, hrest, List.map_cons, List.zip_cons_cons, List.reverse_cons,
    List.tail_cons, List.map_reverse, ← List.zip_map, List.map_cons]

theorem groups_eq {s : Str} (h : s ≠ []) : groups s 3 = (groupRanges s.length).map (group s) := by
  unfold groups
  split
  · rename_i hshort
    have hpos := List.length_pos_iff.mpr h
    obtain hlength | hlength | hlength : s.length = 1 ∨ s.length = 2 ∨ s.length = 3 := by omega
    all_goals
      rw [hlength]
      simp [groupRanges, groupBoundaries, stride, group, hlength, List.range_succ, List.take_of_length_le]
  · rfl

/-- Three more characters are one more group. -/
theorem groups_append {s t : Str} (h : s ≠ []) (ht : t.length = 3) :
    groups (s ++ t) 3 = groups s 3 ++ [t] := by
  have hpos := List.length_pos_iff.mpr h
  rw [groups_eq h, groups_eq (List.append_ne_nil_of_left_ne_nil h t), List.length_append, ht,
    groupRanges_add (by omega), List.map_append, List.map_map]
  congr 1
  · refine List.map_congr_left fun r _ => ?_
    simp only [Function.comp, group, Prod.map_fst, Prod.map_snd, List.length_append, ht, Nat.add_sub_add_right]
    rw [List.take_append_of_le_length (by omega)]
  · rw [List.map_singleton, group, List.length_append, ht]
    have htake : (s ++ t).take (s.length + 3 - 0) = s ++ t :=
      List.take_of_length_le (by rw [List.length_append]; omega)
    rw [htake, Nat.add_sub_cancel, List.drop_left]

theorem groups_ne_nil {s : Str} (h : s ≠ []) : groups s 3 ≠ [] := by
  rw [groups_eq h, Ne, List.map_eq_nil_iff]
  obtain ⟨rest, hrest⟩ := groupBoundaries_cons (List.length_pos_iff.mpr h).ne'
  have hlast : groupBoundaries s.length ≠ [0] := by
    intro heq
    have hmem : s.length ∈ groupBoundaries s.length := List.mem_append_right _ (List.mem_singleton_self _)
    rw [heq, List.mem_singleton] at hmem
    exact h (List.length_eq_zero_iff.mp hmem)
  intro hnil
  rw [groupRanges, List.reverse_eq_nil_iff, hrest, List.tail_cons] at hnil
  cases rest with
  | nil => exact hlast hrest
  | cons r rest => cases hnil

/-- The groups of a number, joined. -/
theorem intercalate_groups (separator : Str) (n : Nat) :
    List.intercalate separator (groups (Nat.toDigits 10 n) 3) = Decimal.grouped separator n := by
  induction n using Nat.strongRecOn with
  | ind n ih =>
      by_cases hsmall : n < 1000
      · have hlength : (Nat.toDigits 10 n).length ≤ 3 :=
          (Nat.length_toDigits_le_iff (by decide) (by decide)).mpr hsmall
        rw [Decimal.grouped_of_lt hsmall, groups, if_pos hlength, Separated.intercalate_singleton]
      · have hdigits : Nat.toDigits 10 n = Nat.toDigits 10 (n / 1000) ++ Decimal.low 3 n :=
          Decimal.toDigits_append_low (k := 3) (by omega)
        rw [Decimal.grouped_of_le (by omega), ← ih (n / 1000) (by omega), hdigits,
          groups_append Nat.toDigits_ne_nil (Decimal.length_low 3 n),
          Separated.intercalate_concat _ _ (groups_ne_nil Nat.toDigits_ne_nil)]

/-! ### Digits -/

/-- A magnitude on display: `digits / 10 ^ places`, without zeros at the end. -/
def magnitudeText (decimalSeparator thousandSeparator : Str) (digits places : Nat) : Str :=
  Decimal.grouped thousandSeparator (digits / 10 ^ places) ++
    if Decimal.trimmed (Decimal.low places digits) = [] then []
    else decimalSeparator ++ Decimal.trimmed (Decimal.low places digits)

variable {decimalSeparator thousandSeparator : Str} {literals : Literals} {forcePlusSign : Bool}

theorem grouped_ne_nil (n : Nat) : Decimal.grouped thousandSeparator n ≠ [] := by
  rw [Decimal.grouped]
  split
  · exact Nat.toDigits_ne_nil
  · exact List.append_ne_nil_of_right_ne_nil _ (List.append_ne_nil_of_right_ne_nil _ (by
      rw [Ne, ← List.length_eq_zero_iff, Decimal.length_low]
      decide))

theorem grouped_eq_zero {n : Nat} : Decimal.grouped thousandSeparator n = ['0'] ↔ n = 0 := by
  constructor
  · intro h
    rw [Decimal.grouped] at h
    split at h
    · have hvalue := congrArg Decimal.value h
      rw [Decimal.value_toDigits] at hvalue
      exact hvalue
    · have hlength := congrArg List.length h
      rw [List.length_append, List.length_append, Decimal.length_low, List.length_singleton] at hlength
      omega
  · rintro rfl
    rw [Decimal.grouped_of_lt (by decide), Nat.toDigits_zero]

theorem magnitudeText_eq_zero {digits places : Nat} :
    magnitudeText decimalSeparator thousandSeparator digits places = ['0'] ↔ digits = 0 := by
  unfold magnitudeText
  have hdiv := Nat.div_add_mod digits (10 ^ places)
  split
  · rename_i hnone
    rw [List.append_nil, grouped_eq_zero]
    rw [Decimal.trimmed_low_eq_nil] at hnone
    constructor
    · intro h
      rw [h, hnone] at hdiv
      rw [← hdiv]
      rfl
    · rintro rfl
      exact Nat.zero_div _
  · rename_i hsome
    constructor
    · intro h
      have hlength := congrArg List.length h
      rw [List.length_append, List.length_append, List.length_singleton] at hlength
      have hgroups := List.length_pos_iff.mpr
        (@grouped_ne_nil thousandSeparator (digits / 10 ^ places))
      have hfraction := List.length_pos_iff.mpr hsome
      omega
    · rintro rfl
      exact absurd (Decimal.trimmed_low_eq_nil.mpr (Nat.zero_mod _)) hsome

theorem joined_eq (sign literal : Str) (digits places : Nat) :
    joined decimalSeparator thousandSeparator sign (Nat.toDigits 10 (digits / 10 ^ places))
        (Decimal.trimmed (Decimal.low places digits)) literal =
      (if digits = 0 then [] else sign) ++
        magnitudeText decimalSeparator thousandSeparator digits places ++ literal := by
  have htext : (if Decimal.trimmed (Decimal.low places digits) = [] then
        List.intercalate thousandSeparator (groups (Nat.toDigits 10 (digits / 10 ^ places)) 3)
      else List.intercalate thousandSeparator (groups (Nat.toDigits 10 (digits / 10 ^ places)) 3) ++
        decimalSeparator ++ Decimal.trimmed (Decimal.low places digits)) =
      magnitudeText decimalSeparator thousandSeparator digits places := by
    rw [intercalate_groups, magnitudeText]
    split
    · rw [List.append_nil]
    · rw [List.append_assoc]
  unfold joined
  simp only [htext]
  by_cases hzero : digits = 0
  · rw [if_neg (not_not_intro (magnitudeText_eq_zero.mpr hzero)), if_pos hzero]
  · rw [if_pos (fun h => hzero (magnitudeText_eq_zero.mp h)), if_neg hzero]

/-- The digits the formatter starts from. -/
theorem padded_digits (p m : Nat) :
    List.replicate ((p : Int) - (Nat.toDigits 10 m).length + 1).toNat '0' ++ Nat.toDigits 10 m =
      Nat.toDigits 10 (m / 10 ^ p) ++ Decimal.low p m := by
  rw [← Decimal.padded]
  congr 2
  omega

theorem rtake_append_low (s : Str) (k n : Nat) : (s ++ Decimal.low k n).rtake k = Decimal.low k n := by
  rw [List.rtake, List.length_append, Decimal.length_low, Nat.add_sub_cancel, List.drop_left]

theorem take_append_low (s : Str) (k n : Nat) :
    (s ++ Decimal.low k n).take ((s ++ Decimal.low k n).length - k) = s := by
  rw [List.length_append, Decimal.length_low, Nat.add_sub_cancel, List.take_left]

/-- The sign in front of a magnitude that is not zero. -/
def sign (value : Int) (forcePlusSign : Bool) : Str :=
  if value < 0 then ['-'] else if forcePlusSign then ['+'] else []

theorem sign_eq (value : Int) (forcePlusSign : Bool) :
    (if decide (value < 0) = true then (['-'] : Str)
      else if (!decide (value < 0) && forcePlusSign) = true then ['+'] else []) =
      sign value forcePlusSign := by
  unfold sign
  by_cases h : value < 0
  · rw [if_pos (decide_eq_true h), if_pos h]
  · rw [if_neg (by simpa using h), if_neg h, decide_eq_false h, Bool.not_false, Bool.true_and]

theorem string_eq (value : Int) (p : Nat) (shortFormat : Bool) :
    string ⟨value, p⟩ decimalSeparator thousandSeparator literals forcePlusSign shortFormat =
      .ok (if shortFormat then
          shortened decimalSeparator thousandSeparator literals (decide (value < 0))
            (if !decide (value < 0) && forcePlusSign then ['+'] else []) (sign value forcePlusSign)
            (Nat.toDigits 10 (value.natAbs / 10 ^ p)) (Decimal.trimmed (Decimal.low p value.natAbs))
        else joined decimalSeparator thousandSeparator (sign value forcePlusSign)
          (Nat.toDigits 10 (value.natAbs / 10 ^ p)) (Decimal.trimmed (Decimal.low p value.natAbs)) []) := by
  unfold string
  simp only [Int.natCast_nonneg, decide_true, Int.toNat_natCast, padded_digits, rtake_append_low,
    Decimal.length_low, take_append_low, sign_eq]
  rfl

/-! ### The full format -/

theorem string_full (value : Int) (p : Nat) :
    string ⟨value, p⟩ decimalSeparator thousandSeparator literals forcePlusSign false =
      .ok ((if value = 0 then [] else sign value forcePlusSign) ++
        magnitudeText decimalSeparator thousandSeparator value.natAbs p) := by
  have hjoined := @joined_eq decimalSeparator thousandSeparator (sign value forcePlusSign) []
    value.natAbs p
  rw [List.append_nil] at hjoined
  simp only [Int.natAbs_eq_zero] at hjoined
  rw [string_eq, if_neg Bool.false_ne_true, hjoined]

/-! ### The short format -/

/-- What a short amount is a number of. -/
inductive Scale
  | units
  | millions
  | billions
  | trillions
  deriving DecidableEq, Repr

/-- The power of ten. -/
def Scale.exponent : Scale → Nat
  | units => 0
  | millions => 6
  | billions => 9
  | trillions => 12

def Scale.literal : Scale → Str
  | units => []
  | millions => ['M']
  | billions => ['B']
  | trillions => ['T']

/-- The scale of `m / 10 ^ p`. -/
def scale (m p : Nat) : Scale :=
  if m < 10 ^ 8 * 10 ^ p then .units
  else if m < 10 ^ 9 * 10 ^ p then .millions
  else if m < 10 ^ 12 * 10 ^ p then .billions
  else .trillions

/-- How many decimal places of `m / 10 ^ p` are shown at most. -/
def places (m p : Nat) : Nat :=
  if m < 10 ^ 3 * 10 ^ p then 5
  else if m < 10 ^ 4 * 10 ^ p then 4
  else if m < 10 ^ 5 * 10 ^ p then 3
  else if m < 10 ^ 6 * 10 ^ p then 2
  else if m < 10 ^ 7 * 10 ^ p then 1
  else if m < 10 ^ 8 * 10 ^ p then 0
  else 3

/-- `m / 10 ^ p` in its scale, truncated: a number with `places m p` decimal places. -/
def shownDigits (m p : Nat) : Nat := Decimal.truncated (places m p) (p + (scale m p).exponent) m

/-- The short text of `value / 10 ^ p`. -/
def shortText (value : Int) (p : Nat) (forcePlusSign : Bool) : Str :=
  let m := value.natAbs
  if m < 10 ^ 15 * 10 ^ p then
    (if shownDigits m p = 0 then [] else sign value forcePlusSign) ++
      magnitudeText ['.'] [','] (shownDigits m p) (places m p) ++ (scale m p).literal
  else if value < 0 then ['<', ' ', '-', '9', '9', '9', 'T']
  else if forcePlusSign then ['>', ' ', '+', '9', '9', '9', 'T']
  else ['>', ' ', '9', '9', '9', 'T']

/-- The number of integer digits says how large an amount is. -/
theorem length_integer_le {m p j : Nat} (h : 0 < j) :
    (Nat.toDigits 10 (m / 10 ^ p)).length ≤ j ↔ m < 10 ^ j * 10 ^ p := by
  rw [Nat.length_toDigits_le_iff (by decide) h, Nat.div_lt_iff_lt_mul (Nat.pow_pos (by decide))]

theorem shortened_units {m p : Nat} (h : m < 10 ^ 8 * 10 ^ p) (isNegative : Bool)
    (positiveSign sign : Str) :
    shortened decimalSeparator thousandSeparator literals isNegative positiveSign sign
        (Nat.toDigits 10 (m / 10 ^ p)) (Decimal.trimmed (Decimal.low p m)) =
      (if shownDigits m p = 0 then [] else sign) ++
        magnitudeText decimalSeparator thousandSeparator (shownDigits m p) (places m p) := by
  have hlength := (length_integer_le (by decide)).mpr h
  have hscale : scale m p = .units := if_pos h
  have hplaces : min (8 - (Nat.toDigits 10 (m / 10 ^ p)).length) 5 = places m p := by
    have h3 := @length_integer_le m p 3 (by decide)
    have h4 := @length_integer_le m p 4 (by decide)
    have h5 := @length_integer_le m p 5 (by decide)
    have h6 := @length_integer_le m p 6 (by decide)
    have h7 := @length_integer_le m p 7 (by decide)
    have h8 := @length_integer_le m p 8 (by decide)
    unfold places
    split_ifs <;> omega
  have hshown : shownDigits m p = Decimal.truncated (places m p) p m := by
    rw [shownDigits, hscale]
    rfl
  have hjoined := @joined_eq decimalSeparator thousandSeparator sign [] (shownDigits m p) (places m p)
  rw [List.append_nil] at hjoined
  have hcase : literalAndDegree literals (Nat.toDigits 10 (m / 10 ^ p)).length = some ([], 0) :=
    if_pos hlength
  rw [← hjoined, shortened, hcase]
  show joined _ _ _ _ (Decimal.trimmed ((Decimal.trimmed (Decimal.low p m)).take _)) _ = _
  rw [hplaces, Decimal.trimmed_take_trimmed, Decimal.trimmed_take_low, hshown, Decimal.truncated_div]

/-- A literal stands for the digits that are taken off. -/
theorem joined_scaled {m p degree : Nat} (hdegree : 3 ≤ degree) (h : 10 ^ degree ≤ m / 10 ^ p)
    (sign literal : Str) :
    joined decimalSeparator thousandSeparator sign
        ((Nat.toDigits 10 (m / 10 ^ p)).take ((Nat.toDigits 10 (m / 10 ^ p)).length - degree))
        (removingTrailingZeroes (((Nat.toDigits 10 (m / 10 ^ p)).rtake degree).take 3)) literal =
      (if Decimal.truncated 3 (p + degree) m = 0 then [] else sign) ++
        magnitudeText decimalSeparator thousandSeparator (Decimal.truncated 3 (p + degree) m) 3 ++
        literal := by
  have hinteger : m / 10 ^ p / 10 ^ degree = Decimal.truncated 3 (p + degree) m / 10 ^ 3 := by
    rw [Decimal.truncated_div, Nat.div_div_eq_div_mul, ← Nat.pow_add]
  obtain ⟨k, rfl⟩ := Nat.exists_eq_add_of_le hdegree
  have hfraction : m / 10 ^ p / 10 ^ k = Decimal.truncated 3 (p + (3 + k)) m := by
    rw [Decimal.truncated_of_le (by omega), Nat.div_div_eq_div_mul, ← Nat.pow_add]
    congr 2
    omega
  rw [← joined_eq, Decimal.toDigits_append_low h, take_append_low, rtake_append_low, Decimal.take_low,
    hinteger, hfraction]
  rfl

/-- The literal and the degree are those of the scale. -/
theorem literalAndDegree_eq (m p : Nat) :
    literalAndDegree defaultLiterals (Nat.toDigits 10 (m / 10 ^ p)).length =
      if m < 10 ^ 15 * 10 ^ p then some ((scale m p).literal, (scale m p).exponent) else none := by
  have h8 := @length_integer_le m p 8 (by decide)
  have h9 := @length_integer_le m p 9 (by decide)
  have h12 := @length_integer_le m p 12 (by decide)
  have h15 := @length_integer_le m p 15 (by decide)
  unfold literalAndDegree scale
  split_ifs <;> first | rfl | omega

theorem shortened_scaled {m p : Nat} (hlarge : 10 ^ 8 * 10 ^ p ≤ m) (h : m < 10 ^ 15 * 10 ^ p)
    (isNegative : Bool) (positiveSign sign : Str) :
    shortened decimalSeparator thousandSeparator defaultLiterals isNegative positiveSign sign
        (Nat.toDigits 10 (m / 10 ^ p)) (Decimal.trimmed (Decimal.low p m)) =
      (if shownDigits m p = 0 then [] else sign) ++
        magnitudeText decimalSeparator thousandSeparator (shownDigits m p) (places m p) ++
        (scale m p).literal := by
  have hcase := literalAndDegree_eq m p
  rw [if_pos h] at hcase
  have hplaces : places m p = 3 := by
    unfold places
    split_ifs <;> omega
  have hexponent : 3 ≤ (scale m p).exponent ∧ 10 ^ (scale m p).exponent * 10 ^ p ≤ m := by
    unfold scale
    split_ifs with h8 h9 h12
    · exact absurd hlarge (by omega)
    · exact ⟨by decide, show 10 ^ 6 * 10 ^ p ≤ m by omega⟩
    · exact ⟨by decide, show 10 ^ 9 * 10 ^ p ≤ m by omega⟩
    · exact ⟨by decide, show 10 ^ 12 * 10 ^ p ≤ m by omega⟩
  have hinteger : 10 ^ (scale m p).exponent ≤ m / 10 ^ p :=
    (Nat.le_div_iff_mul_le (Nat.pow_pos (by decide))).mpr hexponent.2
  rw [shortened, hcase]
  show (if 0 < (scale m p).exponent then _ else _) = _
  rw [if_pos (by omega), joined_scaled hexponent.1 hinteger, shownDigits, hplaces]

/-- The short format of every amount. -/
theorem string_short (value : Int) (p : Nat) :
    string ⟨value, p⟩ ['.'] [','] defaultLiterals forcePlusSign true =
      .ok (shortText value p forcePlusSign) := by
  rw [string_eq, if_pos rfl, shortText]
  congr 1
  by_cases h8 : value.natAbs < 10 ^ 8 * 10 ^ p
  · have hliteral : (scale value.natAbs p).literal = [] := by
      rw [scale, if_pos h8]
      rfl
    have h15 : value.natAbs < 10 ^ 15 * 10 ^ p := by omega
    rw [shortened_units h8, if_pos h15, hliteral, List.append_nil]
  · by_cases h15 : value.natAbs < 10 ^ 15 * 10 ^ p
    · rw [shortened_scaled (by omega) h15, if_pos h15]
    · have hcase := literalAndDegree_eq value.natAbs p
      rw [if_neg h15] at hcase
      rw [if_neg h15, shortened, hcase]
      by_cases hnegative : value < 0
      · simp [hnegative, defaultLiterals]
      · cases forcePlusSign <;> simp [hnegative, defaultLiterals]

/-! ### What the text says -/

/-- The number that a magnitude on display denotes. -/
def readMagnitude (text : Str) : ℚ :=
  let digits := text.filter (· ≠ ',')
  let fractional := (digits.dropWhile (· ≠ '.')).tail
  Decimal.value (digits.takeWhile (· ≠ '.')) + Decimal.value fractional / 10 ^ fractional.length

theorem filter_magnitudeText (digits places : Nat) :
    (magnitudeText ['.'] [','] digits places).filter (· ≠ ',') =
      Nat.toDigits 10 (digits / 10 ^ places) ++
        if Decimal.trimmed (Decimal.low places digits) = [] then []
        else '.' :: Decimal.trimmed (Decimal.low places digits) := by
  rw [magnitudeText, List.filter_append, Decimal.grouped_filter (by decide)]
  congr 1
  have hfraction : (Decimal.trimmed (Decimal.low places digits)).filter (· ≠ ',') =
      Decimal.trimmed (Decimal.low places digits) :=
    List.filter_eq_self.mpr fun c hc => decide_eq_true fun heq => by
      have hdigit := Decimal.isDigit_of_mem_low (Decimal.mem_of_mem_trimmed hc)
      rw [heq] at hdigit
      cases hdigit
  split
  · rfl
  · rw [List.singleton_append, List.filter_cons_of_pos (by decide), hfraction]

theorem readMagnitude_text (digits places : Nat) :
    readMagnitude (magnitudeText ['.'] [','] digits places) = digits / 10 ^ places := by
  have hsplit : (digits : ℚ) = (digits / 10 ^ places : Nat) * 10 ^ places + (digits % 10 ^ places : Nat) := by
    exact_mod_cast (Nat.div_add_mod' digits (10 ^ places)).symm
  have hpow : (10 : ℚ) ^ places ≠ 0 := pow_ne_zero _ (by norm_num)
  have hdigits : ∀ c ∈ Nat.toDigits 10 (digits / 10 ^ places), decide (c ≠ '.') = true := by
    intro c hc
    have hdigit := Nat.isDigit_of_mem_toDigits (by decide) (by decide) hc
    refine decide_eq_true fun heq => ?_
    rw [heq] at hdigit
    cases hdigit
  unfold readMagnitude
  simp only [filter_magnitudeText]
  rw [List.takeWhile_append_of_pos hdigits, List.dropWhile_append_of_pos hdigits]
  split
  · rename_i hnone
    rw [Decimal.trimmed_low_eq_nil] at hnone
    rw [hnone, Nat.cast_zero, add_zero] at hsplit
    rw [eq_div_iff hpow, hsplit]
    simp [Decimal.value]
  · have hvalue := Decimal.value_trimmed (Decimal.low places digits)
    have hle := Decimal.length_trimmed_le (Decimal.low places digits)
    rw [Decimal.value_low, Decimal.length_low] at hvalue
    rw [Decimal.length_low] at hle
    rw [List.takeWhile_cons_of_neg (by decide), List.dropWhile_cons_of_neg (by decide), List.tail_cons,
      List.append_nil, Decimal.value_toDigits]
    have hplaces : (10 : ℚ) ^ places =
        10 ^ (places - (Decimal.trimmed (Decimal.low places digits)).length) *
          10 ^ (Decimal.trimmed (Decimal.low places digits)).length := by
      rw [← pow_add, Nat.sub_add_cancel hle]
    rw [← hvalue] at hsplit
    rw [hsplit, hplaces]
    push_cast
    field_simp

/-- The magnitude that a short text shows. -/
def shownMagnitude (m p : Nat) : ℚ :=
  if m < 10 ^ 15 * 10 ^ p then
    readMagnitude (magnitudeText ['.'] [','] (shownDigits m p) (places m p)) * 10 ^ (scale m p).exponent
  else 999 * 10 ^ 12

theorem shownMagnitude_le (m p : Nat) : shownMagnitude m p ≤ m / 10 ^ p := by
  have hpow : ∀ k : Nat, (0 : ℚ) < 10 ^ k := fun k => pow_pos (by norm_num) k
  unfold shownMagnitude
  rw [le_div_iff₀ (hpow p)]
  split
  · have hle := Decimal.truncated_mul_le (places m p) (p + (scale m p).exponent) m
    have hcast : (shownDigits m p : ℚ) * 10 ^ (p + (scale m p).exponent) ≤ m * 10 ^ places m p := by
      exact_mod_cast hle
    rw [readMagnitude_text, div_mul_eq_mul_div, div_mul_eq_mul_div, div_le_iff₀ (hpow _)]
    calc (shownDigits m p : ℚ) * 10 ^ (scale m p).exponent * 10 ^ p
        = shownDigits m p * 10 ^ (p + (scale m p).exponent) := by
          rw [pow_add, mul_assoc, mul_comm ((10 : ℚ) ^ p)]
      _ ≤ m * 10 ^ places m p := hcast
  · rename_i hlarge
    have hlarge' : (10 : ℚ) ^ 15 * 10 ^ p ≤ m := by
      exact_mod_cast Nat.le_of_not_lt hlarge
    calc (999 * 10 ^ 12 : ℚ) * 10 ^ p ≤ 10 ^ 15 * 10 ^ p :=
          mul_le_mul_of_nonneg_right (by norm_num) (hpow p).le
      _ ≤ m := hlarge'

/-- The short text of an amount, and that it never shows more than the amount. -/
theorem string_short_shown (value : Int) (p : Nat) (forcePlusSign : Bool) :
    string ⟨value, p⟩ ['.'] [','] defaultLiterals forcePlusSign true =
        .ok (shortText value p forcePlusSign) ∧
      shownMagnitude value.natAbs p ≤ |(value : ℚ)| / 10 ^ p := by
  have hmagnitude := shownMagnitude_le value.natAbs p
  have habs : ((value.natAbs : Nat) : ℚ) = |(value : ℚ)| := by
    rw [Nat.cast_natAbs, Int.cast_abs]
  rw [habs] at hmagnitude
  exact ⟨string_short value p, hmagnitude⟩

end TokenFormatter

end MultisigWallet
