import Mathlib.Data.List.DropRight
import Mathlib.Algebra.Group.Nat.Defs

/-!
# Decimal numerals with a fraction

A number `n` with `k` decimal places is written as the digits of `n / 10 ^ k`, a separator, and
the last `k` digits of `n` (`low k n`) without the zeros at their end (`trimmed`). A fraction keeps
its value when trailing zeros go away, and cutting it off after `j` places truncates the number.
Integer digits may be put in groups of three (`grouped`).
-/

namespace Decimal

variable {k n : Nat} {s t : List Char}

/-! ### The last digits -/

/-- The last `k` digits of `n`, zeros included. -/
def low : Nat → Nat → List Char
  | 0, _ => []
  | k + 1, n => low k (n / 10) ++ [Nat.digitChar (n % 10)]

@[simp] theorem length_low (k n : Nat) : (low k n).length = k := by
  induction k generalizing n with
  | zero => rfl
  | succ k ih => rw [low, List.length_append, ih, List.length_singleton]

theorem isDigit_of_mem_low {c : Char} (h : c ∈ low k n) : c.isDigit = true := by
  induction k generalizing n with
  | zero => cases h
  | succ k ih =>
      rw [low, List.mem_append, List.mem_singleton] at h
      rcases h with h | rfl
      · exact ih h
      · rw [Nat.isDigit_digitChar, decide_eq_true_eq]
        omega

theorem low_add (j k n : Nat) : low (j + k) n = low j (n / 10 ^ k) ++ low k n := by
  induction k generalizing n with
  | zero => rw [Nat.add_zero, Nat.pow_zero, Nat.div_one, low, List.append_nil]
  | succ k ih =>
      rw [← Nat.add_assoc, low, low, ih, List.append_assoc, Nat.div_div_eq_div_mul, Nat.pow_succ,
        Nat.mul_comm 10]

/-- Zeros in the place of a power of ten. -/
theorem low_mul_pow (j k n : Nat) : low (j + k) (n * 10 ^ k) = low j n ++ List.replicate k '0' := by
  induction k with
  | zero => rw [Nat.add_zero, Nat.pow_zero, Nat.mul_one, List.replicate_zero, List.append_nil]
  | succ k ih =>
      rw [← Nat.add_assoc, low, Nat.pow_succ, ← Nat.mul_assoc, Nat.mul_div_cancel _ (by decide), ih,
        Nat.mul_mod_left, List.append_assoc, List.replicate_succ']
      rfl

/-- The digits of `n`, with zeros in front if they are not more than `k`, up to the last `k`. -/
theorem padded (k n : Nat) :
    List.replicate (k + 1 - (Nat.toDigits 10 n).length) '0' ++ Nat.toDigits 10 n =
      Nat.toDigits 10 (n / 10 ^ k) ++ low k n := by
  induction k generalizing n with
  | zero =>
      have hpos := Nat.length_toDigits_pos (b := 10) (n := n)
      have hnone : 0 + 1 - (Nat.toDigits 10 n).length = 0 := by omega
      rw [hnone, low, Nat.pow_zero, Nat.div_one, List.append_nil]
      rfl
  | succ k ih =>
      have hdiv : n / 10 / 10 ^ k = n / 10 ^ (k + 1) := by
        rw [Nat.div_div_eq_div_mul, Nat.pow_succ, Nat.mul_comm 10]
      rw [low, ← List.append_assoc, ← hdiv, ← ih (n / 10)]
      by_cases hsmall : n < 10
      · have hzero : n / 10 = 0 := Nat.div_eq_of_lt hsmall
        rw [hzero, Nat.toDigits_of_lt_base hsmall, Nat.toDigits_zero, Nat.mod_eq_of_lt hsmall,
          List.length_singleton, List.length_singleton, Nat.add_sub_cancel, Nat.add_sub_cancel,
          List.replicate_succ', List.append_assoc]
      · rw [Nat.toDigits_of_base_le (by decide) (by omega : 10 ≤ n), List.length_append,
          List.length_singleton, Nat.add_sub_add_right, List.append_assoc]

theorem toDigits_append_low (h : 10 ^ k ≤ n) :
    Nat.toDigits 10 n = Nat.toDigits 10 (n / 10 ^ k) ++ low k n := by
  rw [← padded]
  have hlength : k + 1 - (Nat.toDigits 10 n).length = 0 := by
    by_contra hne
    cases k with
    | zero =>
        have := Nat.length_toDigits_pos (b := 10) (n := n)
        omega
    | succ k =>
        have hle := (Nat.length_toDigits_le_iff (b := 10) (n := n) (by decide) k.succ_pos).mp (by omega)
        omega
  rw [hlength]
  rfl

/-! ### Values -/

/-- The number a string of digits denotes. -/
def value (s : List Char) : Nat := Nat.ofDigitChars 10 s 0

theorem value_append (s t : List Char) : value (s ++ t) = value s * 10 ^ t.length + value t := by
  rw [value, Nat.ofDigitChars_append, Nat.ofDigitChars_eq_ofDigitChars_zero, Nat.mul_comm]
  rfl

@[simp] theorem value_toDigits (n : Nat) : value (Nat.toDigits 10 n) = n :=
  Nat.ofDigitChars_ten_toDigits

theorem value_replicate_zero (k : Nat) : value (List.replicate k '0') = 0 :=
  Nat.ofDigitChars_replicate_zero

theorem value_low (k n : Nat) : value (low k n) = n % 10 ^ k := by
  have h := congrArg value (padded k n)
  rw [value_append, value_append, value_replicate_zero, value_toDigits, value_toDigits, length_low] at h
  have hdiv := Nat.div_add_mod n (10 ^ k)
  rw [Nat.mul_comm (10 ^ k)] at hdiv
  omega

/-! ### Trailing zeros -/

/-- A string without the zeros at its end. -/
def trimmed (s : List Char) : List Char := s.rdropWhile (· = '0')

theorem trimmed_eq_nil : trimmed s = [] ↔ ∀ c ∈ s, c = '0' := by
  unfold trimmed
  rw [List.rdropWhile_eq_nil_iff]
  simp only [decide_eq_true_eq]

theorem trimmed_concat_zero (s : List Char) : trimmed (s ++ ['0']) = trimmed s := by
  simp [trimmed]

theorem trimmed_concat {c : Char} (h : c ≠ '0') (s : List Char) : trimmed (s ++ [c]) = s ++ [c] := by
  simp [trimmed, h]

theorem trimmed_append (s t : List Char) :
    trimmed (s ++ t) = if trimmed t = [] then trimmed s else s ++ trimmed t := by
  induction t using List.reverseRecOn with
  | nil =>
      rw [List.append_nil]
      exact (if_pos rfl).symm
  | append_singleton t c ih =>
      rw [← List.append_assoc]
      by_cases hc : c = '0'
      · rw [hc, trimmed_concat_zero, trimmed_concat_zero, ih]
      · rw [trimmed_concat hc, trimmed_concat hc, if_neg (by simp), List.append_assoc]

theorem trimmed_append_zeros (s : List Char) (k : Nat) :
    trimmed (s ++ List.replicate k '0') = trimmed s := by
  rw [trimmed_append, if_pos (trimmed_eq_nil.mpr fun c hc => List.eq_of_mem_replicate hc)]

/-- What is trimmed is a string of zeros. -/
theorem eq_trimmed_append (s : List Char) : ∃ k, s = trimmed s ++ List.replicate k '0' := by
  induction s using List.reverseRecOn with
  | nil => exact ⟨0, rfl⟩
  | append_singleton s c ih =>
      by_cases hc : c = '0'
      · obtain ⟨k, hk⟩ := ih
        refine ⟨k + 1, ?_⟩
        rw [hc, trimmed_concat_zero, List.replicate_succ', ← List.append_assoc, ← hk]
      · exact ⟨0, by rw [trimmed_concat hc, List.replicate_zero, List.append_nil]⟩

/-- Cutting off and trimming, in any order. -/
theorem trimmed_take_trimmed (j : Nat) (s : List Char) :
    trimmed ((trimmed s).take j) = trimmed (s.take j) := by
  obtain ⟨k, hk⟩ := eq_trimmed_append s
  have htake : s.take j = (trimmed s).take j ++ List.replicate (min (j - (trimmed s).length) k) '0' := by
    conv_lhs => rw [hk]
    rw [List.take_append, List.take_replicate]
  rw [htake, trimmed_append_zeros]

/-- Zeros at the end do not count in a fraction. -/
theorem value_trimmed (s : List Char) :
    value (trimmed s) * 10 ^ (s.length - (trimmed s).length) = value s := by
  obtain ⟨k, hk⟩ := eq_trimmed_append s
  have hlength : s.length - (trimmed s).length = k := by
    have := congrArg List.length hk
    rw [List.length_append, List.length_replicate] at this
    omega
  rw [hlength]
  conv_rhs => rw [hk]
  rw [value_append, value_replicate_zero, List.length_replicate, Nat.add_zero]

theorem length_trimmed_le (s : List Char) : (trimmed s).length ≤ s.length :=
  (List.rdropWhile_prefix _ s).length_le

theorem mem_of_mem_trimmed {c : Char} (h : c ∈ trimmed s) : c ∈ s :=
  (List.rdropWhile_prefix _ s).subset h

theorem take_low (j k n : Nat) : (low (j + k) n).take j = low j (n / 10 ^ k) := by
  rw [low_add, List.take_append_of_le_length (by rw [length_low]), List.take_of_length_le (by rw [length_low])]

/-! ### Strings of digits -/

theorem value_cons (c : Char) (s : List Char) :
    value (c :: s) = (c.toNat - '0'.toNat) * 10 ^ s.length + value s := by
  have hc : value [c] = c.toNat - '0'.toNat := by
    rw [value, Nat.ofDigitChars_cons, Nat.ofDigitChars_nil, Nat.mul_zero, Nat.zero_add]
  rw [← List.singleton_append, value_append, hc]

theorem digit_lt {c : Char} (h : c.isDigit = true) : c.toNat - '0'.toNat < 10 := by
  have hbounds : 48 ≤ c.toNat ∧ c.toNat ≤ 57 := by
    simpa [Char.isDigit, Char.le_def, UInt32.le_iff_toNat_le] using h
  have hzero : '0'.toNat = 48 := rfl
  omega

theorem digit_eq_zero {c : Char} (h : c.isDigit = true) : c.toNat - '0'.toNat = 0 ↔ c = '0' := by
  have hbounds : 48 ≤ c.toNat ∧ c.toNat ≤ 57 := by
    simpa [Char.isDigit, Char.le_def, UInt32.le_iff_toNat_le] using h
  have hzero : '0'.toNat = 48 := rfl
  constructor
  · intro hsub
    exact Char.toNat_inj.mp (by omega)
  · rintro rfl
    rfl

theorem value_lt (h : ∀ c ∈ s, c.isDigit = true) : value s < 10 ^ s.length := by
  induction s with
  | nil => exact Nat.one_pos
  | cons c s ih =>
      have hc := digit_lt (h c List.mem_cons_self)
      have hs := ih fun d hd => h d (List.mem_cons_of_mem c hd)
      rw [value_cons, List.length_cons, Nat.pow_succ, Nat.mul_comm (10 ^ s.length)]
      calc (c.toNat - '0'.toNat) * 10 ^ s.length + value s
          < (c.toNat - '0'.toNat) * 10 ^ s.length + 10 ^ s.length := Nat.add_lt_add_left hs _
        _ = (c.toNat - '0'.toNat + 1) * 10 ^ s.length := (Nat.succ_mul _ _).symm
        _ ≤ 10 * 10 ^ s.length := Nat.mul_le_mul_right _ hc

theorem value_eq_zero (h : ∀ c ∈ s, c.isDigit = true) : value s = 0 ↔ ∀ c ∈ s, c = '0' := by
  induction s with
  | nil => exact ⟨fun _ c hc => absurd hc List.not_mem_nil, fun _ => rfl⟩
  | cons c s ih =>
      have hpos : 10 ^ s.length ≠ 0 := (Nat.pow_pos (by decide)).ne'
      rw [value_cons, Nat.add_eq_zero_iff, ih fun d hd => h d (List.mem_cons_of_mem c hd),
        List.forall_mem_cons, ← digit_eq_zero (h c List.mem_cons_self), Nat.mul_eq_zero,
        or_iff_left hpos]

/-- Cutting digits off a fraction truncates it. -/
theorem value_take (h : ∀ c ∈ s, c.isDigit = true) (hk : k ≤ s.length) :
    value (s.take k) = value s * 10 ^ k / 10 ^ s.length := by
  have hpow : 10 ^ s.length = 10 ^ (s.length - k) * 10 ^ k := by
    rw [← Nat.pow_add, Nat.sub_add_cancel hk]
  have hdrop : value (s.drop k) < 10 ^ (s.length - k) := by
    have hlt := value_lt (s := s.drop k) fun c hc => h c (List.mem_of_mem_drop hc)
    rwa [List.length_drop] at hlt
  have hsplit : value s = value (s.take k) * 10 ^ (s.length - k) + value (s.drop k) := by
    have happend := value_append (s.take k) (s.drop k)
    rwa [List.take_append_drop, List.length_drop] at happend
  rw [hpow, Nat.mul_div_mul_right _ _ (Nat.pow_pos (by decide)), hsplit, Nat.mul_comm,
    Nat.mul_add_div (Nat.pow_pos (by decide)), Nat.div_eq_of_lt hdrop, Nat.add_zero]

/-! ### Cutting off -/

/-- `n / 10 ^ k` cut off after `j` places, as a number with `j` places. -/
def truncated (j k n : Nat) : Nat := n * 10 ^ j / 10 ^ k

theorem truncated_div (j k n : Nat) : truncated j k n / 10 ^ j = n / 10 ^ k := by
  rw [truncated, Nat.div_div_eq_div_mul, Nat.mul_div_mul_right _ _ (Nat.pow_pos (by decide))]

theorem truncated_mul_le (j k n : Nat) : truncated j k n * 10 ^ k ≤ n * 10 ^ j :=
  Nat.div_mul_le_self _ _

theorem truncated_of_le {j k : Nat} (h : j ≤ k) (n : Nat) : truncated j k n = n / 10 ^ (k - j) := by
  have hpow : 10 ^ k = 10 ^ (k - j) * 10 ^ j := by rw [← Nat.pow_add, Nat.sub_add_cancel h]
  rw [truncated, hpow, Nat.mul_div_mul_right _ _ (Nat.pow_pos (by decide))]

theorem truncated_of_ge {j k : Nat} (h : k ≤ j) (n : Nat) : truncated j k n = n * 10 ^ (j - k) := by
  have hpow : 10 ^ j = 10 ^ (j - k) * 10 ^ k := by rw [← Nat.pow_add, Nat.sub_add_cancel h]
  rw [truncated, hpow, ← Nat.mul_assoc, Nat.mul_div_cancel _ (Nat.pow_pos (by decide))]

/-- Cutting off the digits cuts off the number. -/
theorem trimmed_take_low (j k n : Nat) :
    trimmed ((low k n).take j) = trimmed (low j (truncated j k n)) := by
  rcases Nat.le_total j k with h | h
  · obtain ⟨i, rfl⟩ := Nat.exists_eq_add_of_le h
    rw [take_low, truncated_of_le h, Nat.add_sub_cancel_left]
  · obtain ⟨i, rfl⟩ := Nat.exists_eq_add_of_le h
    rw [List.take_of_length_le (by rw [length_low]; omega), truncated_of_ge h, Nat.add_sub_cancel_left,
      low_mul_pow, trimmed_append_zeros]

theorem trimmed_low_eq_nil : trimmed (low k n) = [] ↔ n % 10 ^ k = 0 := by
  constructor
  · intro h
    have hvalue := value_trimmed (low k n)
    rw [h, value_low] at hvalue
    rw [← hvalue]
    exact Nat.zero_mul _
  · intro h
    obtain ⟨q, rfl⟩ := Nat.dvd_of_mod_eq_zero h
    have hlow := low_mul_pow 0 k q
    rw [Nat.zero_add, low, List.nil_append, Nat.mul_comm] at hlow
    rw [hlow]
    exact trimmed_eq_nil.mpr fun c hc => List.eq_of_mem_replicate hc

/-! ### Groups of three -/

/-- The digits of `n` in groups of three. -/
def grouped (sep : List Char) (n : Nat) : List Char :=
  if n < 1000 then Nat.toDigits 10 n else grouped sep (n / 1000) ++ (sep ++ low 3 n)

theorem grouped_of_lt {sep : List Char} (h : n < 1000) : grouped sep n = Nat.toDigits 10 n := by
  rw [grouped, if_pos h]

theorem grouped_of_le {sep : List Char} (h : 1000 ≤ n) :
    grouped sep n = grouped sep (n / 1000) ++ (sep ++ low 3 n) := by
  rw [grouped, if_neg (by omega)]

theorem grouped_nil (n : Nat) : grouped [] n = Nat.toDigits 10 n := by
  induction n using Nat.strongRecOn with
  | ind n ih =>
      by_cases hsmall : n < 1000
      · exact grouped_of_lt hsmall
      · rw [grouped_of_le (by omega), ih (n / 1000) (by omega), List.nil_append]
        exact (toDigits_append_low (k := 3) (by omega)).symm

/-- Without the separator the groups are the digits again. -/
theorem grouped_filter {c : Char} (h : c.isDigit = false) (n : Nat) :
    (grouped [c] n).filter (· ≠ c) = Nat.toDigits 10 n := by
  have hdigits : ∀ s : List Char, (∀ d ∈ s, d.isDigit = true) → s.filter (· ≠ c) = s := by
    intro s hs
    refine List.filter_eq_self.mpr fun d hd => decide_eq_true ?_
    rintro rfl
    exact absurd (hs d hd) (by rw [h]; decide)
  induction n using Nat.strongRecOn with
  | ind n ih =>
      by_cases hsmall : n < 1000
      · rw [grouped_of_lt hsmall]
        exact hdigits _ fun d hd => Nat.isDigit_of_mem_toDigits (by decide) (by decide) hd
      · rw [grouped_of_le (by omega), List.filter_append, ih (n / 1000) (by omega), List.filter_append,
          hdigits (low 3 n) fun d hd => isDigit_of_mem_low hd, toDigits_append_low (k := 3) (n := n) (by omega)]
        simp

theorem mem_grouped {c d : Char} (h : d ∈ grouped [c] n) : d.isDigit = true ∨ d = c := by
  induction n using Nat.strongRecOn with
  | ind n ih =>
      by_cases hsmall : n < 1000
      · rw [grouped_of_lt hsmall] at h
        exact .inl (Nat.isDigit_of_mem_toDigits (by decide) (by decide) h)
      · rw [grouped_of_le (by omega), List.mem_append, List.mem_append, List.mem_singleton] at h
        rcases h with h | rfl | h
        · exact ih (n / 1000) (by omega) h
        · exact .inr rfl
        · exact .inl (isDigit_of_mem_low h)

end Decimal
