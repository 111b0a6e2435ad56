import MultisigWallet.Lib.Decimal
import MultisigWallet.TokenFormatter
import Mathlib.Algebra.Ring.Int.Defs
import Mathlib.Tactic.LinearCombination
import Mathlib.Tactic.Ring

/-!
# MultisigWallet.TokenFormatterReading

What the formatter makes of a text. It falls apart at the last separator, and both parts are parsed
as integers of their own, sign included, and added up. So the sign of the integer part does not
reach the fraction, a fraction may bring a sign of its own, and a fraction that is too long is
dropped altogether. `ParsedAsWritten` says for which texts none of that matters.
-/

namespace MultisigWallet

namespace TokenFormatter

variable {s a b : Str} {c : Char}

/-! ### Where a text is cut -/

/-- What stands before the last separator, without the other separators. -/
def integerPart (s : Str) : Str :=
  if ∃ c ∈ s, c ∈ decimalSeparators then
    (s.rdropWhile (· ∉ decimalSeparators)).filter (· ∉ decimalSeparators)
  else s

/-- What stands after the last separator. -/
def fractionalPart (s : Str) : Str :=
  if ∃ c ∈ s, c ∈ decimalSeparators then s.rtakeWhile (· ∉ decimalSeparators) else []

theorem flatten_components (s : Str) :
    (componentsSeparatedBy decimalSeparators s).flatten = s.filter (· ∉ decimalSeparators) := by
  unfold componentsSeparatedBy
  induction s with
  | nil => rfl
  | cons c s ih =>
      rw [List.splitOnP_cons_eq_if_modifyHead]
      by_cases hc : c ∈ decimalSeparators
      · rw [if_pos (decide_eq_true hc), List.flatten_cons, ih, List.nil_append,
          List.filter_cons_of_neg (by simpa using hc)]
      · rw [if_neg (by simpa using hc), List.filter_cons_of_pos (by simpa using hc), ← ih]
        cases hparts : s.splitOnP (· ∈ decimalSeparators) with
        | nil => exact absurd hparts (List.splitOnP_ne_nil _ s)
        | cons x xs => rfl

/-- Without a separator there is no fraction. -/
theorem partsOf_whole (h : ∀ c ∈ s, c ∉ decimalSeparators) :
    partsOf (componentsSeparatedBy decimalSeparators s) = some (s, ['0']) := by
  have hparts : componentsSeparatedBy decimalSeparators s = [s] :=
    List.splitOnP_eq_singleton fun c hc => decide_eq_false (h c hc)
  rw [hparts]
  rfl

/-- The text is cut at its last separator. -/
theorem partsOf_append (hc : c ∈ decimalSeparators) (hb : ∀ d ∈ b, d ∉ decimalSeparators) :
    partsOf (componentsSeparatedBy decimalSeparators (a ++ c :: b)) =
      some (a.filter (· ∉ decimalSeparators), b) := by
  have hparts : componentsSeparatedBy decimalSeparators (a ++ c :: b) =
      componentsSeparatedBy decimalSeparators a ++ [b] := by
    unfold componentsSeparatedBy
    rw [List.splitOnP_append_cons a b (decide_eq_true hc),
      List.splitOnP_eq_singleton fun d hd => decide_eq_false (hb d hd)]
  rw [hparts, ← flatten_components]
  cases hcut : componentsSeparatedBy decimalSeparators a with
  | nil => exact absurd hcut (List.splitOnP_ne_nil _ a)
  | cons x xs =>
      cases xs with
      | nil =>
          show some (x, b) = some ([x].flatten, b)
          rw [List.flatten_singleton]
      | cons y ys =>
          cases ys with
          | nil =>
              show some ([x, y].flatten, b) = _
              rfl
          | cons z zs =>
              show some ((x :: y :: z :: zs ++ [b]).dropLast.flatten,
                (x :: y :: z :: zs ++ [b]).getLastD []) = _
              rw [List.dropLast_concat, List.getLastD_concat]

/-- What `number(from:)` parses. -/
theorem partsOf_eq (s : Str) : ∃ fractional,
    partsOf (componentsSeparatedBy decimalSeparators s) = some (integerPart s, fractional) ∧
      removingTrailingZeroes fractional = removingTrailingZeroes (fractionalPart s) := by
  by_cases h : ∃ c ∈ s, c ∈ decimalSeparators
  · rw [integerPart, fractionalPart, if_pos h, if_pos h]
    refine ⟨s.rtakeWhile (· ∉ decimalSeparators), ?_, rfl⟩
    have hnonempty : s.rdropWhile (· ∉ decimalSeparators) ≠ [] := by
      rw [Ne, List.rdropWhile_eq_nil_iff]
      intro hall
      obtain ⟨c, hc, hsep⟩ := h
      exact of_decide_eq_true (hall c hc) hsep
    obtain ⟨a, c, ha⟩ := (List.eq_nil_or_concat' _).resolve_left hnonempty
    have hsep : c ∈ decimalSeparators := by
      have hlast := List.rdropWhile_last_not _ s hnonempty
      simp only [ha, List.getLast_append_singleton, decide_eq_true_eq, not_not] at hlast
      exact hlast
    have hs : s = a ++ c :: s.rtakeWhile (· ∉ decimalSeparators) := by
      conv_lhs => rw [← List.rdropWhile_append_rtakeWhile (p := fun c => decide (c ∉ decimalSeparators)) (l := s)]
      rw [ha, List.append_assoc, List.singleton_append]
    have hafter : ∀ d ∈ s.rtakeWhile (· ∉ decimalSeparators), d ∉ decimalSeparators := fun d hd =>
      of_decide_eq_true (List.mem_rtakeWhile_imp (p := fun c => decide (c ∉ decimalSeparators)) hd)
    have hparts := partsOf_append (a := a) hsep hafter
    rw [← hs] at hparts
    rw [hparts, ha, List.filter_append, List.filter_singleton]
    simp [hsep]
  · rw [integerPart, fractionalPart, if_neg h, if_neg h]
    exact ⟨['0'], partsOf_whole fun c hc hsep => h ⟨c, hc, hsep⟩, rfl⟩

theorem reverse_append_cons (a b : Str) (c : Char) :
    (a ++ c :: b).reverse = b.reverse ++ c :: a.reverse := by
  rw [List.reverse_append, List.reverse_cons, List.append_assoc, List.singleton_append]

/-- The parts of a text that has a separator. -/
theorem parts_append (hc : c ∈ decimalSeparators) (hb : ∀ d ∈ b, d ∉ decimalSeparators) :
    integerPart (a ++ c :: b) = a.filter (· ∉ decimalSeparators) ∧ fractionalPart (a ++ c :: b) = b := by
  have hexists : ∃ d ∈ a ++ c :: b, d ∈ decimalSeparators :=
    ⟨c, List.mem_append_right a List.mem_cons_self, hc⟩
  have hreverse : ∀ d ∈ b.reverse, decide (d ∉ decimalSeparators) = true := fun d hd =>
    decide_eq_true (hb d (List.mem_reverse.mp hd))
  have hneg : ¬ decide (c ∉ decimalSeparators) = true := by simpa using hc
  have hdrop : (a ++ c :: b).rdropWhile (· ∉ decimalSeparators) = a ++ [c] := by
    rw [List.rdropWhile, reverse_append_cons, List.dropWhile_append_of_pos hreverse,
      List.dropWhile_cons_of_neg (p := (· ∉ decimalSeparators)) hneg, List.reverse_cons,
      List.reverse_reverse]
  have htake : (a ++ c :: b).rtakeWhile (· ∉ decimalSeparators) = b := by
    rw [List.rtakeWhile, reverse_append_cons, List.takeWhile_append_of_pos hreverse,
      List.takeWhile_cons_of_neg (p := (· ∉ decimalSeparators)) hneg, List.append_nil,
      List.reverse_reverse]
  have hlast : [c].filter (· ∉ decimalSeparators) = [] := List.filter_cons_of_neg hneg
  rw [integerPart, fractionalPart, if_pos hexists, if_pos hexists, hdrop, htake, List.filter_append,
    hlast, List.append_nil]
  exact ⟨rfl, rfl⟩

/-- The parts of a text that has none. -/
theorem parts_whole (h : ∀ c ∈ s, c ∉ decimalSeparators) :
    integerPart s = s ∧ fractionalPart s = [] := by
  have hnone : ¬ ∃ c ∈ s, c ∈ decimalSeparators := fun ⟨c, hc, hsep⟩ => h c hc hsep
  rw [integerPart, fractionalPart, if_neg hnone, if_neg hnone]
  exact ⟨rfl, rfl⟩

/-! ### Numerals -/

/-- A numeral without its sign. -/
def unsigned : Str → Str
  | [] => []
  | c :: s => if c ∈ signs then s else c :: s

/-- `n` with the sign of a numeral. -/
def signedAs (s : Str) (n : Nat) : Int := if s.head? = some '-' then -n else n

theorem not_mem_signs (h : c.isDigit = true) : c ∉ signs := by
  intro hc
  rcases List.mem_cons.mp hc with rfl | hc
  · cases h
  · obtain rfl := List.mem_singleton.mp hc
    cases h

theorem isNumeral_iff : IsNumeral s ↔ IsDigits (unsigned s) := by
  cases s with
  | nil => exact ⟨fun _ c hc => absurd hc List.not_mem_nil, fun _ => trivial⟩
  | cons c s =>
      rw [unsigned, IsNumeral]
      by_cases hc : c ∈ signs
      · rw [if_pos hc]
        constructor
        · rintro (hdigits | ⟨-, hdigits⟩)
          · exact absurd hc (not_mem_signs (hdigits c List.mem_cons_self))
          · exact hdigits
        · exact fun hdigits => .inr ⟨hc, hdigits⟩
      · rw [if_neg hc, or_iff_left fun h => hc h.1]

theorem bigInt_eq (lib : BigIntPackage) (s : Str) :
    lib.bigInt s =
      if IsNumeral s then some (signedAs s (numberOfDigits (unsigned s))) else none := by
  by_cases h : IsNumeral s
  · rw [if_pos h]
    have hdigits := isNumeral_iff.mp h
    cases s with
    | nil => exact lib.bigInt_digits [] hdigits
    | cons c s =>
        by_cases hc : c ∈ signs
        · rw [unsigned, if_pos hc] at hdigits
          rw [unsigned, if_pos hc]
          rcases List.mem_cons.mp hc with rfl | hc
          · exact lib.bigInt_plus s hdigits
          · obtain rfl := List.mem_singleton.mp hc
            exact lib.bigInt_minus s hdigits
        · rw [unsigned, if_neg hc] at hdigits
          rw [unsigned, if_neg hc, signedAs, if_neg, lib.bigInt_digits _ hdigits]
          intro hhead
          obtain rfl := Option.some.inj hhead
          exact hc (by decide)
  · rw [if_neg h, lib.bigInt_other s h]

theorem isNumeral_of_digits (h : IsDigits s) : IsNumeral s := by
  cases s with
  | nil => trivial
  | cons c s => exact .inl h

/-- A string of digits is its own magnitude. -/
theorem signedAs_digits (h : IsDigits s) : signedAs s (numberOfDigits (unsigned s)) = numberOfDigits s := by
  cases s with
  | nil => rfl
  | cons c s =>
      have hc := not_mem_signs (h c List.mem_cons_self)
      rw [unsigned, if_neg hc, signedAs, if_neg]
      intro hhead
      obtain rfl := Option.some.inj hhead
      exact hc (by decide)

/-! ### The number that is read -/

/-- `number(from:precision:)` in terms of the two parts. -/
theorem number_eq (lib : BigIntPackage) (input : Str) (p : Nat) :
    number lib input p =
      let integer := integerPart (cleaned input)
      let fractional := Decimal.trimmed (fractionalPart (cleaned input))
      if IsNumeral integer ∧ IsNumeral fractional then
        some ⟨signedAs integer (numberOfDigits (unsigned integer)) * 10 ^ p +
          signedAs fractional (numberOfDigits (unsigned fractional)) *
            lib.power 10 ((p : Int) - fractional.length), p⟩
      else none := by
  obtain ⟨fractional, hparts, htrimmed⟩ := partsOf_eq (cleaned input)
  unfold number
  simp only [hparts]
  by_cases hzero : cleaned input = ['0']
  · have hinteger : integerPart ['0'] = ['0'] := by decide
    have hfraction : Decimal.trimmed (fractionalPart ['0']) = [] := by decide
    have hnumerals : IsNumeral ['0'] ∧ IsNumeral [] := by decide
    have hvalue : signedAs ['0'] (numberOfDigits (unsigned ['0'])) = 0 := by decide
    have hnone : signedAs [] (numberOfDigits (unsigned [])) = 0 := by decide
    rw [if_pos hzero, hzero, hinteger, hfraction, if_pos hnumerals, hvalue, hnone, Int.zero_mul,
      Int.zero_mul]
    rfl
  · rw [if_neg hzero]
    simp only [htrimmed, bigInt_eq, lib.power_natCast]
    show ((if IsNumeral (integerPart (cleaned input)) then _ else none).bind fun _ =>
      (if IsNumeral (Decimal.trimmed (fractionalPart (cleaned input))) then _ else none).bind _) = _
    by_cases hinteger : IsNumeral (integerPart (cleaned input))
    · by_cases hfraction : IsNumeral (Decimal.trimmed (fractionalPart (cleaned input)))
      · rw [if_pos hinteger, if_pos hfraction, if_pos ⟨hinteger, hfraction⟩]
        rfl
      · have hboth : ¬ (IsNumeral (integerPart (cleaned input)) ∧
            IsNumeral (Decimal.trimmed (fractionalPart (cleaned input)))) := fun h => hfraction h.2
        rw [if_pos hinteger, if_neg hfraction, if_neg hboth]
        rfl
    · have hboth : ¬ (IsNumeral (integerPart (cleaned input)) ∧
          IsNumeral (Decimal.trimmed (fractionalPart (cleaned input)))) := fun h => hinteger h.1
      rw [if_neg hinteger, if_neg hboth]
      rfl

theorem isDigits_trimmed (h : IsDigits s) : IsDigits (Decimal.trimmed s) :=
  fun c hc => h c (Decimal.mem_of_mem_trimmed hc)

/-- A text that is a decimal number is read. -/
theorem number_digits (lib : BigIntPackage) {input : Str} (p : Nat)
    (hinteger : IsNumeral (integerPart (cleaned input)))
    (hdigits : IsDigits (fractionalPart (cleaned input))) :
    number lib input p = some
      ⟨signedAs (integerPart (cleaned input)) (numberOfDigits (unsigned (integerPart (cleaned input)))) *
          10 ^ p + (numberOfDigits (Decimal.trimmed (fractionalPart (cleaned input))) : Int) *
            lib.power 10 ((p : Int) - (Decimal.trimmed (fractionalPart (cleaned input))).length), p⟩ := by
  have htrimmed := isDigits_trimmed hdigits
  rw [number_eq]
  simp only
  rw [if_pos ⟨hinteger, isNumeral_of_digits htrimmed⟩, signedAs_digits htrimmed]

/-! ### The parsing law -/

/-- A sign and nothing else. -/
def IsBareSign (s : Str) : Prop := s = ['+'] ∨ s = ['-']

instance (s : Str) : Decidable (IsBareSign s) := inferInstanceAs (Decidable (_ ∨ _))

/-- The digits of a text, without sign and separators: its value is this number, with the sign,
divided by ten to the number of the fractional digits. -/
def allDigits (s : Str) : Nat := numberOfDigits (unsigned (integerPart s) ++ fractionalPart s)

/-- What the result of `number(from:precision:)` says of the text. -/
structure ParsingLaw (lib : BigIntPackage) (p : Nat) (input : Str) : Prop where
  /-- Only a decimal number is read. -/
  rejects : ¬ (IsNumeral (integerPart (cleaned input)) ∧ IsDigits (fractionalPart (cleaned input))) →
    number lib input p = none
  /-- A number that fits the precision is read as it is. -/
  exact_value : IsNumeral (integerPart (cleaned input)) → IsDigits (fractionalPart (cleaned input)) →
    ¬ IsBareSign (cleaned input) →
    (Decimal.trimmed (fractionalPart (cleaned input))).length ≤ p →
      ∃ value, number lib input p = some ⟨value, p⟩ ∧
        value * 10 ^ (fractionalPart (cleaned input)).length =
          signedAs (integerPart (cleaned input)) (allDigits (cleaned input)) * 10 ^ p
  /-- A number with more places is rejected or truncated. -/
  truncated : IsNumeral (integerPart (cleaned input)) → IsDigits (fractionalPart (cleaned input)) →
    ¬ IsBareSign (cleaned input) →
    p < (Decimal.trimmed (fractionalPart (cleaned input))).length →
      number lib input p = none ∨
        number lib input p = some ⟨signedAs (integerPart (cleaned input)) (Decimal.truncated p
          (fractionalPart (cleaned input)).length (allDigits (cleaned input))), p⟩

/-- A text that the formatter reads as it is written: a fraction brings no sign, a negative number
has none, and one that is too long says nothing. -/
def ParsedAsWritten (p : Nat) (input : Str) : Prop :=
  let integer := integerPart (cleaned input)
  let fractional := fractionalPart (cleaned input)
  IsNumeral integer → IsNumeral (Decimal.trimmed fractional) →
    IsDigits fractional ∧ (¬ IsBareSign (cleaned input) →
      if (Decimal.trimmed fractional).length ≤ p then
        integer.head? = some '-' → Decimal.trimmed fractional = []
      else ∀ c ∈ fractional.take p, c = '0')

section Value

variable {integer fractional : Str} {p : Nat}

/-- All digits of a number, from the digits of its parts. -/
theorem allDigits_eq (s : Str) :
    allDigits s = numberOfDigits (unsigned (integerPart s)) * 10 ^ (fractionalPart s).length +
      numberOfDigits (fractionalPart s) :=
  Decimal.value_append _ _

/-- The value that is read of a fraction within the precision. -/
theorem short_value (lib : BigIntPackage) (hle : (Decimal.trimmed fractional).length ≤ p) :
    (numberOfDigits (Decimal.trimmed fractional) : Int) *
        lib.power 10 ((p : Int) - (Decimal.trimmed fractional).length) * 10 ^ fractional.length =
      numberOfDigits fractional * 10 ^ p := by
  have hpower : lib.power 10 ((p : Int) - (Decimal.trimmed fractional).length) =
      10 ^ (p - (Decimal.trimmed fractional).length) := by
    rw [← Int.ofNat_sub hle, lib.power_natCast]
  have hlength := Decimal.length_trimmed_le fractional
  have hvalue : numberOfDigits (Decimal.trimmed fractional) *
      10 ^ (fractional.length - (Decimal.trimmed fractional).length) = numberOfDigits fractional :=
    Decimal.value_trimmed fractional
  have hexponent : p - (Decimal.trimmed fractional).length + fractional.length =
      fractional.length - (Decimal.trimmed fractional).length + p := by omega
  rw [hpower, ← hvalue, mul_assoc, ← pow_add, hexponent, pow_add, ← mul_assoc]
  push_cast
  rfl

/-- A fraction without zeros at its end is zero only if it is empty. -/
theorem trimmed_value_eq_zero (h : IsDigits fractional) :
    numberOfDigits fractional = 0 ↔ Decimal.trimmed fractional = [] :=
  (Decimal.value_eq_zero h).trans Decimal.trimmed_eq_nil.symm

/-- The sign of the integer part does not reach the fraction. -/
theorem exact_iff (lib : BigIntPackage) (i : Nat) (h : IsDigits fractional)
    (hle : (Decimal.trimmed fractional).length ≤ p) :
    (signedAs integer i * 10 ^ p + (numberOfDigits (Decimal.trimmed fractional) : Int) *
        lib.power 10 ((p : Int) - (Decimal.trimmed fractional).length)) * 10 ^ fractional.length =
      signedAs integer (i * 10 ^ fractional.length + numberOfDigits fractional) * 10 ^ p ↔
      (integer.head? = some '-' → Decimal.trimmed fractional = []) := by
  rw [add_mul, short_value lib hle, ← trimmed_value_eq_zero h]
  have hpow : (10 : Int) ^ p ≠ 0 := pow_ne_zero p (by decide)
  unfold signedAs
  by_cases hsign : integer.head? = some '-'
  · rw [if_pos hsign, if_pos hsign, forall_prop_of_true hsign]
    push_cast
    constructor
    · intro heq
      have htwice : (2 * (numberOfDigits fractional : Int)) * 10 ^ p = 0 := by linear_combination heq
      rcases mul_eq_zero.mp htwice with hzero | hzero
      · omega
      · exact absurd hzero hpow
    · intro hzero
      rw [hzero]
      push_cast
      ring
  · rw [if_neg hsign, if_neg hsign, forall_prop_of_false hsign, iff_true]
    push_cast
    ring

/-- A fraction that is too long is dropped. -/
theorem truncated_iff (lib : BigIntPackage) (i : Nat) (h : IsDigits fractional)
    (hlt : p < (Decimal.trimmed fractional).length) :
    signedAs integer i * 10 ^ p + (numberOfDigits (Decimal.trimmed fractional) : Int) *
        lib.power 10 ((p : Int) - (Decimal.trimmed fractional).length) =
      signedAs integer (Decimal.truncated p fractional.length
        (i * 10 ^ fractional.length + numberOfDigits fractional)) ↔
      ∀ c ∈ fractional.take p, c = '0' := by
  have hpower : lib.power 10 ((p : Int) - (Decimal.trimmed fractional).length) = 0 :=
    lib.power_negative _ _ (by decide) (by omega)
  have hlength := Decimal.length_trimmed_le fractional
  have hcut : Decimal.truncated p fractional.length
      (i * 10 ^ fractional.length + numberOfDigits fractional) =
        i * 10 ^ p + Decimal.value (fractional.take p) := by
    rw [Decimal.value_take h (by omega), Decimal.truncated, Nat.add_mul, Nat.mul_right_comm,
      Nat.mul_comm _ (10 ^ fractional.length), Nat.mul_add_div (Nat.pow_pos (by decide))]
    rfl
  have hdigits : ∀ c ∈ fractional.take p, c.isDigit = true := fun c hc => h c (List.mem_of_mem_take hc)
  rw [hpower, mul_zero, add_zero, hcut, ← Decimal.value_eq_zero hdigits]
  unfold signedAs
  by_cases hsign : integer.head? = some '-'
  · rw [if_pos hsign, if_pos hsign]
    push_cast
    constructor
    · intro heq
      have hzero : (Decimal.value (fractional.take p) : Int) = 0 := by linear_combination heq
      exact_mod_cast hzero
    · intro hzero
      rw [hzero]
      push_cast
      ring
  · rw [if_neg hsign, if_neg hsign]
    push_cast
    constructor
    · intro heq
      have hzero : (Decimal.value (fractional.take p) : Int) = 0 := by linear_combination -heq
      exact_mod_cast hzero
    · intro hzero
      rw [hzero]
      push_cast
      ring

end Value

/-- The formatter keeps to the law for exactly the texts that it reads as they are written. -/
theorem number_parsingLaw_iff (lib : BigIntPackage) (p : Nat) (input : Str) :
    ParsingLaw lib p input ↔ ParsedAsWritten p input := by
  have hnumber := number_eq lib input p
  simp only at hnumber
  constructor
  · intro hlaw hinteger hfraction
    have hdigits : IsDigits (fractionalPart (cleaned input)) := by
      by_contra hnot
      rw [if_pos ⟨hinteger, hfraction⟩, hlaw.rejects fun h => hnot h.2] at hnumber
      cases hnumber
    have hread := number_digits lib p hinteger hdigits
    refine ⟨hdigits, fun hbare => ?_⟩
    split
    · rename_i hle
      obtain ⟨value, hvalue, hexact⟩ := hlaw.exact_value hinteger hdigits hbare hle
      obtain rfl := (BigDecimal.mk.inj (Option.some.inj (hread.symm.trans hvalue))).1
      rw [allDigits_eq] at hexact
      exact (exact_iff lib _ hdigits hle).mp hexact
    · rename_i hlong
      have hlt := Nat.lt_of_not_le hlong
      rcases hlaw.truncated hinteger hdigits hbare hlt with hnone | hvalue
      · rw [hnone] at hread
        cases hread
      · have hsame := (BigDecimal.mk.inj (Option.some.inj (hread.symm.trans hvalue))).1
        rw [allDigits_eq] at hsame
        exact (truncated_iff lib _ hdigits hlt).mp hsame
  · intro hwritten
    have hdetails : ∀ hinteger : IsNumeral (integerPart (cleaned input)),
        IsDigits (fractionalPart (cleaned input)) → _ := fun hinteger hdigits =>
      (hwritten hinteger (isNumeral_of_digits (isDigits_trimmed hdigits))).2
    refine ⟨fun hnot => ?_, fun hinteger hdigits hbare hle => ?_,
      fun hinteger hdigits hbare hlt => .inr ?_⟩
    · -- not both parts are numerals: the fraction would consist of digits
      rw [hnumber, if_neg fun h => hnot ⟨h.1, (hwritten h.1 h.2).1⟩]
    · have hsign := hdetails hinteger hdigits hbare
      rw [if_pos hle] at hsign
      refine ⟨_, number_digits lib p hinteger hdigits, ?_⟩
      rw [allDigits_eq]
      exact (exact_iff lib _ hdigits hle).mpr hsign
    · have hzeros := hdetails hinteger hdigits hbare
      rw [if_neg (Nat.not_le_of_lt hlt)] at hzeros
      rw [number_digits lib p hinteger hdigits, allDigits_eq,
        (truncated_iff lib _ hdigits hlt).mpr hzeros]

/-- A package that reads exactly the numerals. -/
def exactPackage : BigIntPackage where
  bigInt s := if IsNumeral s then some (signedAs s (numberOfDigits (unsigned s))) else none
  power b n := if 0 ≤ n then b ^ n.toNat else 0
  bigInt_digits s h := by rw [if_pos (isNumeral_of_digits h), signedAs_digits h]
  bigInt_plus s h := by
    rw [if_pos (.inr ⟨by decide, h⟩)]
    rfl
  bigInt_minus s h := by
    rw [if_pos (.inr ⟨by decide, h⟩)]
    rfl
  bigInt_other s h := if_neg h
  power_natCast b n := by rw [if_pos (Int.natCast_nonneg n), Int.toNat_natCast]
  power_negative b n _ h := if_neg (by omega)

/-- The sign does not reach the fraction, a fraction brings a sign, and one that is too long is
dropped. -/
theorem not_parsingLaw_negative :
    number exactPackage ['-', '1', '.', '5'] 1 = some ⟨-5, 1⟩ ∧
      number exactPackage ['1', '.', '-', '5'] 2 = some ⟨95, 2⟩ ∧
      number exactPackage ['1', '.', '1', '2', '3', '9'] 3 = some ⟨1000, 3⟩ ∧
      ¬ ParsingLaw exactPackage 1 ['-', '1', '.', '5'] ∧
      ¬ ParsingLaw exactPackage 2 ['1', '.', '-', '5'] ∧
      ¬ ParsingLaw exactPackage 3 ['1', '.', '1', '2', '3', '9'] := by
  have hnegative : number exactPackage ['-', '1', '.', '5'] 1 = some ⟨-5, 1⟩ := by decide +kernel
  have hsigned : number exactPackage ['1', '.', '-', '5'] 2 = some ⟨95, 2⟩ := by decide +kernel
  have hlong : number exactPackage ['1', '.', '1', '2', '3', '9'] 3 = some ⟨1000, 3⟩ := by
    decide +kernel
  refine ⟨hnegative, hsigned, hlong, fun h => ?_, fun h => ?_, fun h => ?_⟩
  · obtain ⟨value, hvalue, hexact⟩ :=
      h.exact_value (by decide) (by decide) (by decide) (by decide)
    obtain rfl := (BigDecimal.mk.inj (Option.some.inj (hnegative.symm.trans hvalue))).1
    exact absurd hexact (by decide +kernel)
  · have hnone := h.rejects (by decide)
    rw [show ((2 : Nat) : Int) = 2 from rfl, hsigned] at hnone
    cases hnone
  · rcases h.truncated (by decide) (by decide) (by decide) (by decide) with hnone | hvalue
    · rw [show ((3 : Nat) : Int) = 3 from rfl, hlong] at hnone
      cases hnone
    · have hsame := (BigDecimal.mk.inj (Option.some.inj (hlong.symm.trans hvalue))).1
      exact absurd hsame (by decide +kernel)

end TokenFormatter

end MultisigWallet
