import MultisigWallet.TokenFormatterReading
import MultisigWallet.TokenFormatterSound
import MultisigWallet.TokenInput

/-!
# MultisigWallet.TokenInputSound

When an amount survives in its field. The text of an amount is read back unless it has groups, no
fraction, and a grouping separator that is also looked for as a decimal one: then the last group is
taken for the fraction (`Survives`). The field needs its rules besides, and setting an amount up
does not run them.
-/

namespace MultisigWallet

namespace TokenFormatter

variable {n d v : Nat} {s a b : Str} {c : Char} {input : Str}

/-! ### Texts of digits -/

theorem not_separator (h : c.isDigit = true) : c ∉ decimalSeparators := by
  intro hc
  simp only [decimalSeparators, List.mem_cons, List.not_mem_nil, or_false] at hc
  rcases hc with rfl | rfl | rfl <;> cases h

theorem not_whitespace (h : c.isDigit = true) : isWhitespaceOrNewline c = false := by
  have hbounds : 48 ≤ c.toNat ∧ c.toNat ≤ 57 := by
    simpa [Char.isDigit, Char.le_def, UInt32.le_iff_toNat_le] using h
  simp only [isWhitespaceOrNewline, decide_eq_false_iff_not]
  omega

/-- A text between two digits has nothing to trim. -/
theorem trimming_eq {c d : Char} (hc : c.isDigit = true) (hd : d.isDigit = true)
    (hfirst : s.head? = some c) (hlast : s.getLast? = some d) :
    trimmed s = s := by
  obtain ⟨front, rfl⟩ := List.getLast?_eq_some_iff.mp hlast
  have hdrop : (front ++ [d]).dropWhile isWhitespaceOrNewline = front ++ [d] := by
    cases front with
    | nil => exact List.dropWhile_cons_of_neg (by rw [not_whitespace hd]; decide)
    | cons e front =>
        obtain rfl := Option.some.inj hfirst
        exact List.dropWhile_cons_of_neg (by rw [not_whitespace hc]; decide)
  rw [trimmed, hdrop]
  exact List.rdropWhile_concat_neg _ _ _ (by rw [not_whitespace hd]; decide)

theorem head_toDigits (n : Nat) : ∃ c, c.isDigit = true ∧ (Nat.toDigits 10 n).head? = some c := by
  cases hdigits : Nat.toDigits 10 n with
  | nil => exact absurd hdigits Nat.toDigits_ne_nil
  | cons c s =>
      have hmem : c ∈ Nat.toDigits 10 n := hdigits ▸ List.mem_cons_self
      exact ⟨c, Nat.isDigit_of_mem_toDigits (by decide) (by decide) hmem, rfl⟩

theorem head_grouped (separator : Str) (n : Nat) :
    ∃ c, c.isDigit = true ∧ (Decimal.grouped separator n).head? = some c := by
  induction n using Nat.strongRecOn with
  | ind n ih =>
      by_cases hsmall : n < 1000
      · rw [Decimal.grouped_of_lt hsmall]
        exact head_toDigits n
      · obtain ⟨c, hc, hhead⟩ := ih (n / 1000) (by omega)
        refine ⟨c, hc, ?_⟩
        rw [Decimal.grouped_of_le (by omega), List.head?_append, hhead]
        rfl

theorem last_of_digits (h : ∀ c ∈ b, c.isDigit = true) (hb : b ≠ []) :
    ∃ c, c.isDigit = true ∧ (a ++ b).getLast? = some c := by
  obtain ⟨front, c, rfl⟩ := (List.eq_nil_or_concat' b).resolve_left hb
  refine ⟨c, h c (List.mem_append_right front (List.mem_singleton_self c)), ?_⟩
  rw [← List.append_assoc, List.getLast?_concat]

theorem low_ne_nil (k n : Nat) (hk : k ≠ 0) : Decimal.low k n ≠ [] := by
  rw [Ne, ← List.length_eq_zero_iff, Decimal.length_low]
  exact hk

theorem last_grouped (separator : Str) (n : Nat) :
    ∃ c, c.isDigit = true ∧ (Decimal.grouped separator n).getLast? = some c := by
  rw [Decimal.grouped]
  split
  · rw [← List.nil_append (Nat.toDigits 10 n)]
    exact last_of_digits (fun c hc => Nat.isDigit_of_mem_toDigits (by decide) (by decide) hc)
      Nat.toDigits_ne_nil
  · rw [← List.append_assoc]
    exact last_of_digits (fun c hc => Decimal.isDigit_of_mem_low hc) (low_ne_nil 3 n (by decide))

/-! ### Reading a text of digits -/

/-- A text of digits is the number of the digits. -/
theorem number_whole (lib : BigIntPackage) (d : Nat) (h : cleaned input = Nat.toDigits 10 n) :
    number lib input d = some ⟨n * 10 ^ d, d⟩ := by
  have hdigits : ∀ c ∈ Nat.toDigits 10 n, c.isDigit = true := fun c hc =>
    Nat.isDigit_of_mem_toDigits (by decide) (by decide) hc
  obtain ⟨hinteger, hfraction⟩ := parts_whole fun c hc => not_separator (hdigits c hc)
  rw [← h] at hinteger hfraction
  have hnumeral : IsNumeral (integerPart (cleaned input)) := by
    rw [hinteger, h]
    exact isNumeral_of_digits hdigits
  have hnone : IsDigits (fractionalPart (cleaned input)) := by
    rw [hfraction]
    intro c hc
    cases hc
  rw [number_digits lib d hnumeral hnone, hinteger, hfraction, h, signedAs_digits hdigits]
  have hvalue : numberOfDigits (Nat.toDigits 10 n) = n := Decimal.value_toDigits n
  rw [hvalue, show numberOfDigits (Decimal.trimmed []) = 0 from rfl, Nat.cast_zero, zero_mul, add_zero]

/-- A text of digits with a separator in it. -/
theorem number_parts (lib : BigIntPackage) (d : Nat) (h : cleaned input = a ++ c :: b)
    (hc : c ∈ decimalSeparators) (hb : IsDigits b)
    (ha : a.filter (· ∉ decimalSeparators) = Nat.toDigits 10 n) :
    number lib input d = some ⟨n * 10 ^ d + (numberOfDigits (Decimal.trimmed b) : Int) *
      lib.power 10 ((d : Int) - (Decimal.trimmed b).length), d⟩ := by
  have hdigits : ∀ c ∈ Nat.toDigits 10 n, c.isDigit = true := fun c hc =>
    Nat.isDigit_of_mem_toDigits (by decide) (by decide) hc
  obtain ⟨hinteger, hfraction⟩ := @parts_append a b c hc fun e he => not_separator (hb e he)
  rw [← h] at hinteger hfraction
  rw [ha] at hinteger
  have hnumeral : IsNumeral (integerPart (cleaned input)) := by
    rw [hinteger]
    exact isNumeral_of_digits hdigits
  have hvalue : numberOfDigits (Nat.toDigits 10 n) = n := Decimal.value_toDigits n
  rw [number_digits lib d hnumeral (hfraction ▸ hb), hinteger, hfraction, signedAs_digits hdigits, hvalue]

/-! ### Reading what was written -/

section Written

variable {separator groupSeparator : Char} {grouping : Str}

/-- A space, or nothing at all, between the groups. -/
def IsBlank (grouping : Str) : Prop := grouping = [] ∨ grouping = [' ']

theorem filter_digits {p : Char → Bool} (hp : ∀ c : Char, c.isDigit = true → p c = true)
    (h : ∀ c ∈ s, c.isDigit = true) : s.filter p = s :=
  List.filter_eq_self.mpr fun c hc => hp c (h c hc)

theorem digits_ne_space (c : Char) (h : c.isDigit = true) : decide (c ≠ ' ') = true :=
  decide_eq_true fun heq => by
    rw [heq] at h
    cases h

theorem isDigit_toDigits (n : Nat) : ∀ c ∈ Nat.toDigits 10 n, c.isDigit = true := fun _ hc =>
  Nat.isDigit_of_mem_toDigits (by decide) (by decide) hc

theorem isDigit_fraction (d v : Nat) : ∀ c ∈ Decimal.trimmed (Decimal.low d v), c.isDigit = true :=
  fun _ hc => Decimal.isDigit_of_mem_low (Decimal.mem_of_mem_trimmed hc)

/-- The formatter's own text has nothing to trim. -/
theorem trimming_magnitudeText (decimalSeparator grouping : Str) (v d : Nat) :
    trimmed (magnitudeText decimalSeparator grouping v d) =
      magnitudeText decimalSeparator grouping v d := by
  obtain ⟨c, hc, hfirst⟩ := head_grouped grouping (v / 10 ^ d)
  obtain ⟨e, he, hlast⟩ : ∃ e, e.isDigit = true ∧
      (magnitudeText decimalSeparator grouping v d).getLast? = some e := by
    unfold magnitudeText
    split
    · rw [List.append_nil]
      exact last_grouped grouping (v / 10 ^ d)
    · rename_i hfraction
      rw [← List.append_assoc]
      exact last_of_digits (isDigit_fraction d v) hfraction
  refine trimming_eq hc he ?_ hlast
  rw [magnitudeText, List.head?_append, hfirst]
  rfl

theorem cleaned_magnitudeText (hseparator : separator ∈ decimalSeparators) (grouping : Str)
    (v d : Nat) :
    cleaned (magnitudeText [separator] grouping v d) =
      (Decimal.grouped grouping (v / 10 ^ d)).filter (· ≠ ' ') ++
        if Decimal.trimmed (Decimal.low d v) = [] then []
        else separator :: Decimal.trimmed (Decimal.low d v) := by
  have hspace : separator ≠ ' ' := by
    rintro rfl
    exact absurd hseparator (by decide)
  rw [cleaned, trimming_magnitudeText, magnitudeText, List.filter_append]
  split
  · rfl
  · rw [List.singleton_append, List.filter_cons, if_pos (decide_eq_true hspace),
      filter_digits digits_ne_space (isDigit_fraction d v)]

theorem filter_blank (h : IsBlank grouping) (n : Nat) :
    (Decimal.grouped grouping n).filter (· ≠ ' ') = Nat.toDigits 10 n := by
  rcases h with rfl | rfl
  · rw [Decimal.grouped_nil, filter_digits digits_ne_space (isDigit_toDigits n)]
  · exact Decimal.grouped_filter (by decide) n

/-- Groups that stand apart by a decimal separator. -/
theorem filter_separated (h : groupSeparator ∈ decimalSeparators) (n : Nat) :
    (Decimal.grouped [groupSeparator] n).filter (· ≠ ' ') = Decimal.grouped [groupSeparator] n ∧
      (Decimal.grouped [groupSeparator] n).filter (· ∉ decimalSeparators) = Nat.toDigits 10 n := by
  have hdigit : groupSeparator.isDigit = false := by
    rw [← Bool.not_eq_true]
    exact fun hdigit => not_separator hdigit h
  constructor
  · refine List.filter_eq_self.mpr fun c hc => ?_
    rcases Decimal.mem_grouped hc with hc | rfl
    · exact digits_ne_space c hc
    · refine decide_eq_true ?_
      rintro rfl
      exact absurd h (by decide)
  · rw [← Decimal.grouped_filter hdigit n]
    refine List.filter_congr fun c hc => ?_
    rcases Decimal.mem_grouped hc with hcdigit | rfl
    · have hne : c ≠ groupSeparator := by
        rintro rfl
        rw [hcdigit] at hdigit
        cases hdigit
      rw [decide_eq_true (not_separator hcdigit), decide_eq_true hne]
    · simp [h]

/-- The value of the fraction that was written. -/
theorem fraction_value (lib : BigIntPackage) (d v : Nat) :
    (numberOfDigits (Decimal.trimmed (Decimal.low d v)) : Int) *
      lib.power 10 ((d : Int) - (Decimal.trimmed (Decimal.low d v)).length) = (v % 10 ^ d : Nat) := by
  have hle : (Decimal.trimmed (Decimal.low d v)).length ≤ d := by
    have := Decimal.length_trimmed_le (Decimal.low d v)
    rwa [Decimal.length_low] at this
  have hvalue := short_value lib hle
  have hlow : numberOfDigits (Decimal.low d v) = v % 10 ^ d := Decimal.value_low d v
  rw [Decimal.length_low, hlow] at hvalue
  exact mul_right_cancel₀ (pow_ne_zero d (by decide)) hvalue

/-- A number with a fraction is read back. -/
theorem number_fraction (lib : BigIntPackage) (hseparator : separator ∈ decimalSeparators)
    (hgrouping : IsBlank grouping ∨ ∃ g ∈ decimalSeparators, grouping = [g])
    (hfraction : v % 10 ^ d ≠ 0) :
    number lib (magnitudeText [separator] grouping v d) d = some ⟨v, d⟩ := by
  have hcleaned := cleaned_magnitudeText hseparator grouping v d
  rw [if_neg fun h => hfraction (Decimal.trimmed_low_eq_nil.mp h)] at hcleaned
  have hinteger : ((Decimal.grouped grouping (v / 10 ^ d)).filter (· ≠ ' ')).filter
      (· ∉ decimalSeparators) = Nat.toDigits 10 (v / 10 ^ d) := by
    rcases hgrouping with hblank | ⟨g, hg, rfl⟩
    · rw [filter_blank hblank]
      exact filter_digits (fun c hc => decide_eq_true (not_separator hc)) (isDigit_toDigits _)
    · obtain ⟨hspaces, hdigits⟩ := filter_separated hg (v / 10 ^ d)
      rw [hspaces, hdigits]
  have htrimmed : Decimal.trimmed (Decimal.trimmed (Decimal.low d v)) =
      Decimal.trimmed (Decimal.low d v) := List.rdropWhile_idempotent _ _
  rw [number_parts lib d hcleaned hseparator (isDigit_fraction d v) hinteger, htrimmed]
  have hvalue := fraction_value lib d v
  have hsplit : (v : Int) = (v / 10 ^ d : Nat) * 10 ^ d + (v % 10 ^ d : Nat) := by
    exact_mod_cast (Nat.div_add_mod' v (10 ^ d)).symm
  rw [hvalue, ← hsplit]

/-- A number without a fraction is read back if no group is taken for one. -/
theorem number_integer (lib : BigIntPackage) (hseparator : separator ∈ decimalSeparators)
    (hfraction : v % 10 ^ d = 0) (hgrouping : IsBlank grouping ∨ v < 1000 * 10 ^ d) :
    number lib (magnitudeText [separator] grouping v d) d = some ⟨v, d⟩ := by
  have hcleaned := cleaned_magnitudeText hseparator grouping v d
  rw [if_pos (Decimal.trimmed_low_eq_nil.mpr hfraction), List.append_nil] at hcleaned
  have hdigits : (Decimal.grouped grouping (v / 10 ^ d)).filter (· ≠ ' ') =
      Nat.toDigits 10 (v / 10 ^ d) := by
    rcases hgrouping with hblank | hsmall
    · exact filter_blank hblank _
    · rw [Decimal.grouped_of_lt ((Nat.div_lt_iff_lt_mul (Nat.pow_pos (by decide))).mpr hsmall)]
      exact filter_digits digits_ne_space (isDigit_toDigits _)
  have hsplit : ((v / 10 ^ d : Nat) : Int) * 10 ^ d = v := by
    exact_mod_cast Nat.div_mul_cancel (Nat.dvd_of_mod_eq_zero hfraction)
  rw [number_whole lib d (hcleaned.trans hdigits), hsplit]

/-- Digits taken for a fraction are worth less than they were as a group. -/
theorem group_value_le (lib : BigIntPackage) (d : Nat) (hb : b.length = 3) :
    (numberOfDigits (Decimal.trimmed b) : Int) *
      lib.power 10 ((d : Int) - (Decimal.trimmed b).length) * 1000 ≤ numberOfDigits b * 10 ^ d := by
  by_cases hle : (Decimal.trimmed b).length ≤ d
  · have hvalue := short_value lib hle
    rw [hb] at hvalue
    exact le_of_eq hvalue
  · rw [lib.power_negative 10 _ (by decide) (by omega), mul_zero, zero_mul]
    exact mul_nonneg (Int.natCast_nonneg _) (pow_nonneg (by decide) d)

/-- Otherwise the last group is taken for the fraction, and the number is too small. -/
theorem number_group (lib : BigIntPackage) (hseparator : separator ∈ decimalSeparators)
    (hgroup : groupSeparator ∈ decimalSeparators) (hfraction : v % 10 ^ d = 0)
    (hlarge : 1000 * 10 ^ d ≤ v) :
    ∃ w : Int, number lib (magnitudeText [separator] [groupSeparator] v d) d = some ⟨w, d⟩ ∧
      w < v := by
  have hpos : 0 < 10 ^ d := Nat.pow_pos (by decide)
  have hthousand : 1000 ≤ v / 10 ^ d := (Nat.le_div_iff_mul_le hpos).mpr hlarge
  have hcleaned := cleaned_magnitudeText hseparator [groupSeparator] v d
  rw [if_pos (Decimal.trimmed_low_eq_nil.mpr hfraction), List.append_nil,
    (filter_separated hgroup (v / 10 ^ d)).1, Decimal.grouped_of_le hthousand,
    List.singleton_append] at hcleaned
  have hlow : IsDigits (Decimal.low 3 (v / 10 ^ d)) := fun c hc => Decimal.isDigit_of_mem_low hc
  refine ⟨_, number_parts lib d hcleaned hgroup hlow (filter_separated hgroup _).2, ?_⟩
  -- what the last group adds as a fraction, and what it added as a group
  have hle := group_value_le lib d (Decimal.length_low 3 (v / 10 ^ d))
  have hvalue : numberOfDigits (Decimal.low 3 (v / 10 ^ d)) = v / 10 ^ d % 1000 :=
    Decimal.value_low 3 (v / 10 ^ d)
  rw [hvalue] at hle
  have hsplit : v / 10 ^ d = 1000 * (v / 10 ^ d / 1000) + v / 10 ^ d % 1000 :=
    (Nat.div_add_mod _ 1000).symm
  have hwhole : (v : Int) = (v / 10 ^ d : Nat) * 10 ^ d := by
    exact_mod_cast (Nat.div_mul_cancel (Nat.dvd_of_mod_eq_zero hfraction)).symm
  generalize v / 10 ^ d = i at hthousand hle hsplit hwhole ⊢
  generalize (numberOfDigits (Decimal.trimmed (Decimal.low 3 i)) : Int) *
    lib.power 10 ((d : Int) - (Decimal.trimmed (Decimal.low 3 i)).length) = x at hle ⊢
  have hpower : (0 : Int) < 10 ^ d := by exact_mod_cast hpos
  generalize (10 : Int) ^ d = q at hle hwhole hpower ⊢
  have hi : (i : Int) = 1000 * (i / 1000 : Nat) + (i % 1000 : Nat) := by exact_mod_cast hsplit
  have hhigh : (0 : Int) < (i / 1000 : Nat) * q := mul_pos (by omega) hpower
  have hlast : (0 : Int) ≤ (i % 1000 : Nat) * q := mul_nonneg (Int.natCast_nonneg _) hpower.le
  rw [hwhole, hi, add_mul, mul_assoc]
  omega

end Written

end TokenFormatter

/-! ### The separators of a locale -/

/-- Different separators of the usual kinds. -/
def Locale.Listed (locale : Locale) : Prop :=
  locale.decimalSeparator ∈ [some ['.'], some [','], some ['٫']] ∧
    locale.groupingSeparator ∈ [some ['.'], some [','], some [' '], some []] ∧
    locale.groupingSeparator ≠ locale.decimalSeparator

instance (locale : Locale) : Decidable locale.Listed := inferInstanceAs (Decidable (_ ∧ _))

/-- The groups stand apart by a character that the formatter takes for a decimal separator. -/
def Locale.GroupsLikeDecimals (locale : Locale) : Prop :=
  locale.groupingSeparator = some ['.'] ∨ locale.groupingSeparator = some [',']

instance (locale : Locale) : Decidable locale.GroupsLikeDecimals :=
  inferInstanceAs (Decidable (_ ∨ _))

/-- An amount has a fraction, or no groups, or the locale keeps groups and fractions apart. -/
def Survives (locale : Locale) (v d : Nat) : Prop :=
  v % 10 ^ d ≠ 0 ∨ v < 1000 * 10 ^ d ∨ ¬ locale.GroupsLikeDecimals

instance (locale : Locale) (v d : Nat) : Decidable (Survives locale v d) :=
  inferInstanceAs (Decidable (_ ∨ _))

namespace TokenFormatter

variable {locale : Locale} {v d : Nat}

/-- The text of an amount in a locale. -/
def shown (locale : Locale) (v d : Nat) : Str :=
  magnitudeText (locale.decimalSeparator.getD ['.']) (locale.groupingSeparator.getD [',']) v d

theorem localizedString_shown (locale : Locale) (v d : Nat) :
    localizedString ⟨v, d⟩ locale false false = .ok (shown locale v d) := by
  have hsign : sign (v : Int) false = [] := by
    rw [sign, if_neg (by omega)]
    rfl
  rw [localizedString, string_full, hsign, ite_self, List.nil_append, Int.natAbs_natCast, shown]

theorem shown_ne_nil : shown locale v d ≠ [] :=
  List.append_ne_nil_of_left_ne_nil (grouped_ne_nil _) _

/-- How the separators of a listed locale are used. -/
theorem separators_of_listed (h : locale.Listed) :
    ∃ separator ∈ decimalSeparators, locale.decimalSeparator.getD ['.'] = [separator] ∧
      ((¬ locale.GroupsLikeDecimals ∧ IsBlank (locale.groupingSeparator.getD [','])) ∨
        locale.GroupsLikeDecimals ∧ ∃ g ∈ decimalSeparators,
          locale.groupingSeparator.getD [','] = [g]) := by
  obtain ⟨hdecimal, hgrouping, -⟩ := h
  have hgroups : (¬ locale.GroupsLikeDecimals ∧ IsBlank (locale.groupingSeparator.getD [','])) ∨
      locale.GroupsLikeDecimals ∧ ∃ g ∈ decimalSeparators,
        locale.groupingSeparator.getD [','] = [g] := by
    simp only [List.mem_cons, List.not_mem_nil, or_false] at hgrouping
    unfold Locale.GroupsLikeDecimals
    rcases hgrouping with h | h | h | h
    · exact .inr ⟨.inl h, '.', by decide, by rw [h]; rfl⟩
    · exact .inr ⟨.inr h, ',', by decide, by rw [h]; rfl⟩
    · exact .inl ⟨by rw [h]; decide, .inr (by rw [h]; rfl)⟩
    · exact .inl ⟨by rw [h]; decide, .inl (by rw [h]; rfl)⟩
  simp only [List.mem_cons, List.not_mem_nil, or_false] at hdecimal
  rcases hdecimal with h | h | h
  · exact ⟨'.', by decide, by rw [h]; rfl, hgroups⟩
  · exact ⟨',', by decide, by rw [h]; rfl, hgroups⟩
  · exact ⟨'٫', by decide, by rw [h]; rfl, hgroups⟩

theorem number_shown (lib : BigIntPackage) (hlisted : locale.Listed) (h : Survives locale v d) :
    number lib (shown locale v d) d = some ⟨v, d⟩ := by
  obtain ⟨separator, hseparator, hdecimal, hgroups⟩ := separators_of_listed hlisted
  rw [shown, hdecimal]
  by_cases hfraction : v % 10 ^ d = 0
  · refine number_integer lib hseparator hfraction ?_
    rcases hgroups with ⟨-, hblank⟩ | ⟨hlike, -⟩
    · exact .inl hblank
    · exact .inr (h.resolve_left (not_not_intro hfraction) |>.resolve_right (not_not_intro hlike))
  · exact number_fraction lib hseparator (hgroups.imp And.right And.right) hfraction

theorem number_shown_lt (lib : BigIntPackage) (hlisted : locale.Listed)
    (h : ¬ Survives locale v d) :
    ∃ w : Int, number lib (shown locale v d) d = some ⟨w, d⟩ ∧ w < v := by
  obtain ⟨separator, hseparator, hdecimal, hgroups⟩ := separators_of_listed hlisted
  rw [Survives, not_or, not_or, not_not, not_not] at h
  obtain ⟨hfraction, hlarge, hlike⟩ := h
  rcases hgroups with ⟨hnot, -⟩ | ⟨-, g, hg, hgrouping⟩
  · exact absurd hlike hnot
  · rw [shown, hdecimal, hgrouping]
    exact number_group lib hseparator hg hfraction (Nat.le_of_not_lt hlarge)

/-- The formatter reads back the amount that it wrote. -/
def RoundTrips (lib : BigIntPackage) (locale : Locale) (v d : Nat) : Prop :=
  ∃ text, localizedString ⟨v, d⟩ locale false false = .ok text ∧
    number lib text d = some ⟨v, d⟩

theorem roundTrips_iff (lib : BigIntPackage) (h : locale.Listed) :
    RoundTrips lib locale v d ↔ Survives locale v d := by
  constructor
  · rintro ⟨text, htext, hnumber⟩
    rw [localizedString_shown] at htext
    obtain rfl := Except.ok.inj htext
    by_contra hlost
    obtain ⟨w, hw, hlt⟩ := number_shown_lt lib h hlost
    rw [hnumber] at hw
    have hvalue : (v : Int) = w := congrArg BigDecimal.value (Option.some.inj hw)
    omega
  · intro hsurvives
    exact ⟨_, localizedString_shown locale v d, number_shown lib h hsurvives⟩

end TokenFormatter

/-! ### The field -/

namespace TokenInput

open TokenFormatter

variable {lib : BigIntPackage} {field : TokenInput} {v d : Nat}

/-- Setting an amount up and ending the editing of its text any number of times keeps it. -/
def KeepsValue (lib : BigIntPackage) (field : TokenInput) (v d : Nat) : Prop :=
  ∃ shownField, field.setUp v d = .ok shownField ∧
    ∀ n, ∃ ended, endEditing lib n shownField = .ok ended ∧ ended.value = v

/-- The field with an amount on display. -/
def showing (field : TokenInput) (v d : Nat) : TokenInput :=
  { field with
    decimals := d
    value := v
    text := if v = 0 then [] else shown field.locale v d }

theorem maxDigitsCount_eq : TokenBounds.maxDigitsCount = 78 := by decide +kernel

/-- The amount is written into the field; the rules are not run. -/
theorem setUp_eq (field : TokenInput) (hd : d ≤ 78) (hv : v < 2 ^ 256) :
    field.setUp v d = .ok (field.showing v d) := by
  have hdigits : TokenBounds.hasCorrectDigitCount d = true := by
    rw [TokenBounds.hasCorrectDigitCount, maxDigitsCount_eq, TokenBounds.minDigitsCount]
    exact decide_eq_true ⟨by omega, by omega⟩
  have hbounds : TokenBounds.isWithinBounds v = true := by
    rw [TokenBounds.isWithinBounds, TokenBounds.minTokenValue, TokenBounds.maxTokenValue]
    exact decide_eq_true ⟨by omega, by omega⟩
  rw [setUp, hdigits, hbounds, showing]
  by_cases hzero : v = 0
  · subst hzero
    rfl
  · have hne : (v : Int) ≠ 0 := by exact_mod_cast hzero
    rw [if_neg hzero]
    show (if (v : Int) = 0 then _ else _) = _
    rw [if_neg hne, stringValue]
    show (do
      let text ← localizedString ⟨v, d⟩ field.locale false false
      _) = _
    rw [localizedString_shown]
    rfl

/-- Ending the editing sets the amount to zero unless the rules succeeded. -/
theorem textFieldDidEndEditing_dropped (h : ¬ (field.isValid = true ∧ field.text ≠ [])) :
    field.textFieldDidEndEditing lib = .ok { field with value := 0 } := if_neg h

/-- Otherwise it reads the text and writes it again. -/
theorem textFieldDidEndEditing_read {w : BigDecimal} {text : Str}
    (h : field.isValid = true ∧ field.text ≠ [])
    (hnumber : number lib field.text field.decimals = some w)
    (hshown : localizedString ⟨w.value, field.decimals⟩ field.locale false false = .ok text) :
    field.textFieldDidEndEditing lib = .ok { field with value := w.value, text := text } := by
  rw [textFieldDidEndEditing, if_pos h, hnumber]
  show (do
    let text ← localizedString ⟨w.value, field.decimals⟩ field.locale false false
    _) = _
  rw [hshown]
  rfl

/-- A field that shows its amount goes on showing it. -/
theorem endEditing_shown (hlisted : field.locale.Listed) (hsurvives : Survives field.locale v d)
    (hvalid : field.isValid = true) (hdecimals : field.decimals = d) (hvalue : field.value = v)
    (htext : field.text = shown field.locale v d) (n : Nat) :
    endEditing lib n field = .ok field := by
  have hstep : field.textFieldDidEndEditing lib = .ok field := by
    have hread : number lib field.text field.decimals = some ⟨v, d⟩ := by
      rw [htext, hdecimals, number_shown lib hlisted hsurvives]
    have hwritten : localizedString ⟨v, field.decimals⟩ field.locale false false = .ok field.text := by
      rw [htext, hdecimals, localizedString_shown]
    rw [textFieldDidEndEditing_read ⟨hvalid, htext ▸ shown_ne_nil⟩ hread hwritten, ← hvalue]
  induction n with
  | zero => rfl
  | succ n ih =>
      rw [endEditing, hstep]
      exact ih

/-- A field without a text goes on showing zero. -/
theorem endEditing_empty (htext : field.text = []) (hvalue : field.value = 0) (n : Nat) :
    endEditing lib n field = .ok field := by
  have hstep : field.textFieldDidEndEditing lib = .ok field := by
    rw [textFieldDidEndEditing_dropped fun h => h.2 htext, ← hvalue]
  induction n with
  | zero => rfl
  | succ n ih =>
      rw [endEditing, hstep]
      exact ih

/-- Once is enough to lose an amount: without valid rules it becomes zero, and otherwise what the
text is read as. -/
theorem endEditing_lost (hlisted : field.locale.Listed) (hv : v ≠ 0) (hdecimals : field.decimals = d)
    (htext : field.text = shown field.locale v d)
    (hlost : ¬ (field.isValid = true ∧ Survives field.locale v d)) :
    ∃ ended, endEditing lib 1 field = .ok ended ∧ ended.value ≠ v := by
  by_cases hvalid : field.isValid = true
  · obtain ⟨w, hnumber, hlt⟩ :=
      number_shown_lt lib hlisted fun hsurvives => hlost ⟨hvalid, hsurvives⟩
    have hread : number lib field.text field.decimals = some ⟨w, d⟩ := by
      rw [htext, hdecimals, hnumber]
    have hwritten := @string_full (field.locale.decimalSeparator.getD ['.'])
      (field.locale.groupingSeparator.getD [',']) defaultLiterals false w d
    rw [← hdecimals] at hwritten
    rw [endEditing, textFieldDidEndEditing_read ⟨hvalid, htext ▸ shown_ne_nil⟩ hread hwritten]
    exact ⟨_, rfl, hlt.ne⟩
  · refine ⟨{ field with value := 0 }, ?_, ?_⟩
    · rw [endEditing, textFieldDidEndEditing_dropped fun h => hvalid h.1]
      rfl
    · exact fun hzero : (0 : Int) = v => hv (by exact_mod_cast hzero.symm)

/-- An amount stays in its field when it is zero, or when the rules of the field have succeeded
and its text can be read back. -/
theorem keepsValue_iff (lib : BigIntPackage) (field : TokenInput) (hd : d ≤ 78)
    (hv : v < 2 ^ 256) (hlisted : field.locale.Listed) :
    KeepsValue lib field v d ↔ v = 0 ∨ (field.isValid = true ∧ Survives field.locale v d) := by
  rw [KeepsValue, setUp_eq field hd hv]
  constructor
  · rintro ⟨shownField, hshown, hall⟩
    obtain rfl := Except.ok.inj hshown
    by_contra hlost
    rw [not_or] at hlost
    obtain ⟨ended, hended, hne⟩ := @endEditing_lost lib (field.showing v d) v d hlisted hlost.1 rfl
      (if_neg hlost.1) hlost.2
    obtain ⟨kept, hkept, hvalue⟩ := hall 1
    rw [hended] at hkept
    obtain rfl := Except.ok.inj hkept
    exact hne hvalue
  · intro h
    refine ⟨field.showing v d, rfl, fun n => ⟨field.showing v d, ?_, rfl⟩⟩
    by_cases hzero : v = 0
    · subst hzero
      exact endEditing_empty rfl rfl n
    · obtain ⟨hvalid, hsurvives⟩ := h.resolve_left hzero
      exact @endEditing_shown lib (field.showing v d) v d hlisted hsurvives hvalid rfl rfl
        (if_neg hzero) n

/-- A field keeps every amount that is written so that it can be read back, if its rules have
succeeded before; and the formatter reads back exactly these amounts. -/
theorem setUp_keeps_iff (lib : BigIntPackage) (field : TokenInput) (v d : Nat) (hd : d ≤ 78)
    (hv : v < 2 ^ 256) (hlisted : field.locale.Listed) :
    (KeepsValue lib field v d ↔ v = 0 ∨ (field.isValid = true ∧ Survives field.locale v d)) ∧
      (RoundTrips lib field.locale v d ↔ Survives field.locale v d) :=
  ⟨keepsValue_iff lib field hd hv hlisted, roundTrips_iff lib hlisted⟩

/-- The separators of an American and of a German locale. -/
def american : Locale := ⟨some ['.'], some [',']⟩
def german : Locale := ⟨some [','], some ['.']⟩

/-- A field in which a valid amount was typed. -/
def typed (locale : Locale) : TokenInput := setText exactPackage { locale := locale } ['1']

/-- An amount with a fraction, after an amount that was typed. -/
theorem setUp_keeps_fraction :
    KeepsValue exactPackage (typed american) 1234567 3 ∧ RoundTrips exactPackage american 1234567 3 := by
  have h := setUp_keeps_iff exactPackage (typed american) 1234567 3 (by decide) (by decide) (by decide)
  exact ⟨h.1.mpr (.inr ⟨by decide +kernel, by decide⟩), h.2.mpr (by decide)⟩

/-- One thousand becomes one, and a field that has just been made drops every amount. -/
theorem not_keepsValue_group :
    localizedString ⟨1000, 0⟩ german false false = .ok ['1', '.', '0', '0', '0'] ∧
      number exactPackage ['1', '.', '0', '0', '0'] 0 = some ⟨1, 0⟩ ∧
      ¬ RoundTrips exactPackage german 1000 0 ∧
      ¬ KeepsValue exactPackage (typed german) 1000 0 ∧
      ¬ KeepsValue exactPackage { locale := german } 1 0 := by
  refine ⟨by decide +kernel, by decide +kernel, ?_, ?_, ?_⟩
  · rw [roundTrips_iff exactPackage (by decide)]
    decide
  · rw [keepsValue_iff exactPackage (typed german) (by decide) (by decide) (by decide)]
    decide +kernel
  · rw [keepsValue_iff exactPackage { locale := german } (by decide) (by decide) (by decide)]
    decide

end TokenInput

end MultisigWallet
