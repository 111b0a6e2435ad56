import MultisigWallet.Message
import MultisigWallet.Reference

/-!
# MultisigWallet.AddressParsing

Which strings `Address(rawValue:)` accepts, and which of them it should. The initialiser skips the
mark if there is one, cuts off what is too long, and lets text pass that denotes no bytes at all. So
an address that is read is a proper one only if the text was the mark and 39 or 40 digits.
-/

namespace MultisigWallet

/-- The digits of a signed numeral. -/
def unsigned : Str → Str
  | '-' :: digits => digits
  | '+' :: digits => digits
  | digits => digits

/-- `BigInt(_:radix: 16)` is `nil` if a character is no digit, a sign in front apart. -/
structure ThirdParty.ReadsNumerals (lib : ThirdParty) : Prop where
  bigInt_noDigit : ∀ s, (∃ c ∈ unsigned s, c ∉ Bytes.hexDigits) → lib.bigInt s 16 = none

theorem reference_readsNumerals : reference.ReadsNumerals where
  bigInt_noDigit s hs := by
    have hmagnitude : ∀ digits : Str, (∃ c ∈ digits, c ∉ Bytes.hexDigits) →
        Reference.magnitude digits 16 = none := by
      intro digits hdigits
      obtain ⟨c, hc, hdigit⟩ := hdigits
      have hall : ¬ digits.all Reference.isHex = true := by
        rw [List.all_eq_true]
        intro hall
        exact hdigit (of_decide_eq_true (hall c hc))
      rw [Reference.magnitude, if_neg (by simp [hall]), if_neg (by simp)]
    show Reference.bigInt s 16 = none
    unfold Reference.bigInt
    unfold unsigned at hs
    split
    case h_1 digits =>
      rw [hmagnitude digits hs]
      rfl
    case h_2 digits =>
      rw [hmagnitude digits hs]
      rfl
    case h_3 =>
      rw [hmagnitude s (by simpa using hs)]
      rfl

namespace Address

variable {lib : ThirdParty}

/-! ### Text that denotes no bytes -/

/-- A mark can only be at the front. -/
theorem dropHexMarks_eq_self {s : Str} (h : ∀ c ∈ s.take 2, c ≠ 'x' ∧ c ≠ 'X') :
    dropHexMarks s = s := by
  unfold dropHexMarks
  split
  · exact absurd rfl (h 'x' (by simp)).1
  · exact absurd rfl (h 'X' (by simp)).2
  · rfl

/-- A character that is no digit leaves nothing of the text. -/
theorem dataEthHex_noDigit (hlib : lib.Documented) {s : Str}
    (hhead : ∀ c ∈ s.take 2, c ≠ 'x' ∧ c ≠ 'X') (hs : ∃ c ∈ s, c ∉ Bytes.hexDigits) :
    lib.dataEthHex s = [] := by
  unfold ThirdParty.dataEthHex
  simp only [dropHexMarks_eq_self hhead]
  obtain ⟨c, hc, hdigit⟩ := hs
  refine hlib.dataHex_noDigit _ ⟨c, List.mem_append_right _ hc, hdigit⟩ ?_
  intro hmark
  have hsecond : 'x' ∈ ((if s.length % 2 = 1 then ['0'] else []) ++ s).take 2 := by
    obtain ⟨t, ht⟩ := hmark
    rw [← ht]
    simp [hexMark]
  rw [List.take_append] at hsecond
  rcases List.mem_append.mp hsecond with hpadding | hfront
  · split at hpadding <;> simp at hpadding
  · exact (hhead 'x' ((List.take_subset_take_left s (Nat.sub_le 2 _)) hfront)).1 rfl

theorem not_mark_of_digit {c : Char} (h : c ∈ Bytes.hexDigits) : c ≠ 'x' ∧ c ≠ 'X' := by
  constructor <;> (rintro rfl; revert h; decide)

/-- A number with a character that is no digit has a sign in front, and is no bytes. -/
theorem dataEthHex_signed (hlib : lib.Documented) (hnumerals : lib.ReadsNumerals) {s : Str}
    (hs : ¬ ∀ c ∈ s, c ∈ Bytes.hexDigits) (hread : lib.bigInt s 16 ≠ none) :
    lib.dataEthHex s = [] := by
  have hunsigned : ∀ c ∈ unsigned s, c ∈ Bytes.hexDigits := by
    intro c hc
    by_contra hdigit
    exact hread (hnumerals.bigInt_noDigit s ⟨c, hc, hdigit⟩)
  simp only [not_forall] at hs
  obtain ⟨c, hc, hdigit⟩ := hs
  refine dataEthHex_noDigit hlib ?_ ⟨c, hc, hdigit⟩
  have hfront : ∀ (sign : Char) (digits : Str), sign ≠ 'x' ∧ sign ≠ 'X' →
      (∀ c ∈ digits, c ∈ Bytes.hexDigits) → ∀ c ∈ (sign :: digits).take 2, c ≠ 'x' ∧ c ≠ 'X' := by
    intro sign digits hsign hdigits c hc
    rcases List.mem_cons.mp hc with rfl | hc
    · exact hsign
    · exact not_mark_of_digit (hdigits c (List.mem_of_mem_take hc))
  unfold unsigned at hunsigned
  split at hunsigned
  case h_1 digits => exact hfront '-' digits (by decide) hunsigned
  case h_2 digits => exact hfront '+' digits (by decide) hunsigned
  case h_3 => exact absurd (hunsigned c (by simpa using hc)) hdigit

/-! ### What is accepted -/

/-- The text that has to be a number: at most 42 characters, without the mark. -/
def rawDigits (rawValue : Str) : Str :=
  let value := (trimmed rawValue).take 42
  if hexMark <+: value then value.drop 2 else value

theorem dataEthHex_rawDigits (lib : ThirdParty) (rawValue : Str) :
    lib.dataEthHex ((trimmed rawValue).take 42) = lib.dataEthHex (rawDigits rawValue) := by
  unfold rawDigits
  dsimp only
  split
  · rename_i hmark
    obtain ⟨t, ht⟩ := hmark
    rw [← ht, lib.dataEthHex_mark]
    rfl
  · rfl

/-- The text is accepted if it is a number and is read as 20 bytes or none. -/
theorem ofRawValue_eq_some {rawValue : Str} {a : Address} :
    ofRawValue lib rawValue = some a ↔ lib.bigInt (rawDigits rawValue) 16 ≠ none ∧
      ((lib.dataEthHex (rawDigits rawValue)).length = 20 ∨
        lib.dataEthHex (rawDigits rawValue) = []) ∧ a = ⟨(trimmed rawValue).take 42⟩ := by
  rw [← dataEthHex_rawDigits]
  unfold ofRawValue
  show (if (lib.bigInt (rawDigits rawValue) 16).isNone then none else _) = _ ↔ _
  simp only [Option.isNone_iff_eq_none, Option.ite_none_left_eq_some, Option.ite_none_right_eq_some,
    List.isEmpty_iff, Option.some.injEq, ne_eq, eq_comm (a := a)]

/-- The mark and 40 digits are accepted as they are. -/
theorem ofRawValue_wellFormed {a : Address} (h : a.WellFormed) :
    ofRawValue lib a.value = some a := by
  obtain ⟨s, ha, hlen, hs⟩ := h
  have hblank : ∀ c ∈ a.value, isWhitespaceOrNewline c = false := by
    have hdigits : ∀ c ∈ Bytes.hexDigits, isWhitespaceOrNewline c = false :=
      List.all_iff_forall_prop.mp (by decide)
    have hmark : ∀ c ∈ hexMark, isWhitespaceOrNewline c = false := by decide
    rw [ha]
    intro c hc
    rcases List.mem_append.mp hc with hc | hc
    · exact hmark c hc
    · exact hdigits c (hs c hc)
  have hkept : ∀ t : Str, (∀ c ∈ t, isWhitespaceOrNewline c = false) →
      t.dropWhile isWhitespaceOrNewline = t := by
    intro t ht
    cases t with
    | nil => rfl
    | cons c t => rw [List.dropWhile_cons_of_neg (by simp [ht c List.mem_cons_self])]
  have htrimmed : trimmed a.value = a.value := by
    rw [trimmed, hkept a.value hblank,
      hkept a.value.reverse fun c hc => hblank c (List.mem_reverse.mp hc), List.reverse_reverse]
  have hvalue : (trimmed a.value).take 42 = a.value := by
    rw [htrimmed, List.take_of_length_le]
    rw [ha, List.length_append, hlen]
    decide
  have hraw : rawDigits a.value = s := by
    unfold rawDigits
    dsimp only
    rw [hvalue, ha, if_pos (List.prefix_append _ _)]
    rfl
  have hne : s ≠ [] := by
    intro hnil
    rw [hnil] at hlen
    cases hlen
  rw [ofRawValue_eq_some, hraw, hvalue]
  refine ⟨by simp [lib.bigInt_hex s hne hs], .inl ?_, rfl⟩
  rw [lib.length_dataEthHex hs, hlen]

/-- The address that was read is a proper one, and it is the one that the text says. -/
structure ReadProperly (lib : ThirdParty) (rawValue : Str) (a : Address) : Prop where
  mark : hexMark <+: a.value
  bytes : (lib.dataEthHex a.value).length = 20
  loads : ofString lib a.value = .ok a
  same : lib.dataEthHex a.value = lib.dataEthHex (trimmed rawValue)

/-- The text is the mark and 39 or 40 digits. -/
def IsProper (rawValue : Str) : Prop :=
  trimmed rawValue = hexMark ++ rawDigits rawValue ∧
    (∀ c ∈ rawDigits rawValue, c ∈ Bytes.hexDigits) ∧
    ((rawDigits rawValue).length = 39 ∨ (rawDigits rawValue).length = 40)

theorem readProperly_of_isProper {rawValue : Str} (h : IsProper rawValue) :
    ReadProperly lib rawValue ⟨(trimmed rawValue).take 42⟩ := by
  obtain ⟨htrimmed, hdigits, hlen⟩ := h
  have hvalue : (trimmed rawValue).take 42 = hexMark ++ rawDigits rawValue := by
    rw [htrimmed, List.take_of_length_le]
    rw [List.length_append]
    have hmark : hexMark.length = 2 := rfl
    omega
  have hbytes : (lib.dataEthHex (hexMark ++ rawDigits rawValue)).length = 20 := by
    rw [lib.dataEthHex_mark, lib.length_dataEthHex hdigits]
    omega
  rw [hvalue]
  exact {
    mark := List.prefix_append _ _
    bytes := hbytes
    loads := by simp [ofString, precondition, hbytes, bind, Except.bind, pure, Except.pure]
    same := by rw [htrimmed] }

/-- What stands behind 40 digits counts. -/
theorem length_dataEthHex_longer (hlib : lib.Documented) {t rest : Str}
    (ht : ∀ c ∈ t, c ∈ Bytes.hexDigits) (hlen : t.length = 40) (hrest : 0 < rest.length) :
    (lib.dataEthHex (t ++ rest)).length ≠ 20 := by
  by_cases hdigits : ∀ c ∈ t ++ rest, c ∈ Bytes.hexDigits
  · rw [lib.length_dataEthHex hdigits, List.length_append]
    omega
  · simp only [not_forall] at hdigits
    obtain ⟨c, hc, hdigit⟩ := hdigits
    have hhead : ∀ c ∈ (t ++ rest).take 2, c ≠ 'x' ∧ c ≠ 'X' := by
      rw [List.take_append_of_le_length (by omega)]
      exact fun c hc => not_mark_of_digit (ht c (List.mem_of_mem_take hc))
    rw [dataEthHex_noDigit hlib hhead ⟨c, hc, hdigit⟩]
    decide

theorem isProper_of_readProperly (hlib : lib.Documented) {rawValue : Str}
    (hdigits : ∀ c ∈ rawDigits rawValue, c ∈ Bytes.hexDigits)
    (h : ReadProperly lib rawValue ⟨(trimmed rawValue).take 42⟩) : IsProper rawValue := by
  have hbytes : (lib.dataEthHex ((trimmed rawValue).take 42)).length = 20 := h.bytes
  have hsame : lib.dataEthHex ((trimmed rawValue).take 42) = lib.dataEthHex (trimmed rawValue) :=
    h.same
  obtain ⟨t, ht⟩ : hexMark <+: (trimmed rawValue).take 42 := h.mark
  have hraw : rawDigits rawValue = t := by
    unfold rawDigits
    dsimp only
    rw [← ht, if_pos (List.prefix_append _ _)]
    rfl
  rw [hraw] at hdigits
  have hlen : t.length = 39 ∨ t.length = 40 := by
    rw [← ht, lib.dataEthHex_mark, lib.length_dataEthHex hdigits] at hbytes
    omega
  rw [IsProper, hraw]
  refine ⟨?_, hdigits, hlen⟩
  by_cases hshort : (trimmed rawValue).length ≤ 42
  · rw [ht, List.take_of_length_le hshort]
  · exfalso
    have hcut : t.length = 40 := by
      have hlength := congrArg List.length ht
      rw [List.length_append, List.length_take, Nat.min_eq_left (by omega)] at hlength
      exact Nat.add_left_cancel hlength
    have hsplit : hexMark ++ (t ++ (trimmed rawValue).drop 42) = trimmed rawValue := by
      rw [← List.append_assoc, ht, List.take_append_drop]
    have hlonger : (lib.dataEthHex (t ++ (trimmed rawValue).drop 42)).length ≠ 20 :=
      length_dataEthHex_longer hlib hdigits hcut (by rw [List.length_drop]; omega)
    rw [hsame, ← hsplit, lib.dataEthHex_mark] at hbytes
    exact hlonger hbytes

/-- The mark and 40 digits are accepted; and no text is accepted improperly exactly if it is not read
as a number, or has digits that are not as many as an address's, or is a proper address. -/
theorem readProperly_iff (hlib : lib.Documented) (hnumerals : lib.ReadsNumerals) :
    (∀ a : Address, a.WellFormed → ofRawValue lib a.value = some a) ∧
      ∀ rawValue : Str,
        (∀ a, ofRawValue lib rawValue = some a → ReadProperly lib rawValue a) ↔
          lib.bigInt (rawDigits rawValue) 16 = none ∨
            ((∀ c ∈ rawDigits rawValue, c ∈ Bytes.hexDigits) ∧
              (rawDigits rawValue).length ∉ [0, 39, 40]) ∨
            IsProper rawValue := by
  refine ⟨fun a ha => ofRawValue_wellFormed ha, fun rawValue => ?_⟩
  by_cases hread : lib.bigInt (rawDigits rawValue) 16 = none
  · refine iff_of_true ?_ (.inl hread)
    intro a ha
    exact absurd hread (ofRawValue_eq_some.mp ha).1
  · rw [or_iff_right hread]
    have haccepted : ∀ a, ofRawValue lib rawValue = some a ↔
        ((lib.dataEthHex (rawDigits rawValue)).length = 20 ∨
          lib.dataEthHex (rawDigits rawValue) = []) ∧ a = ⟨(trimmed rawValue).take 42⟩ := by
      intro a
      rw [ofRawValue_eq_some, and_iff_right hread]
    by_cases hdigits : ∀ c ∈ rawDigits rawValue, c ∈ Bytes.hexDigits
    · have hbytes : ((lib.dataEthHex (rawDigits rawValue)).length = 20 ∨
          lib.dataEthHex (rawDigits rawValue) = []) ↔ (rawDigits rawValue).length ∈ [0, 39, 40] := by
        rw [← List.length_eq_zero_iff, lib.length_dataEthHex hdigits]
        simp only [List.mem_cons, List.not_mem_nil, or_false]
        omega
      rw [and_iff_right hdigits]
      by_cases hcount : (rawDigits rawValue).length ∈ [0, 39, 40]
      · rw [or_iff_right (not_not.mpr hcount)]
        constructor
        · intro h
          exact isProper_of_readProperly hlib hdigits (h _ ((haccepted _).mpr ⟨hbytes.mpr hcount, rfl⟩))
        · intro h a ha
          obtain ⟨-, rfl⟩ := (haccepted a).mp ha
          exact readProperly_of_isProper h
      · refine iff_of_true ?_ (.inl hcount)
        intro a ha
        exact absurd (hbytes.mp ((haccepted a).mp ha).1) hcount
    · -- a sign: the text is accepted for denoting no bytes
      have hnone := dataEthHex_signed hlib hnumerals hdigits hread
      refine iff_of_false ?_ ?_
      · intro h
        have hread := (h _ ((haccepted _).mpr ⟨.inr hnone, rfl⟩)).bytes
        rw [dataEthHex_rawDigits, hnone] at hread
        cases hread
      · intro h
        rcases h with h | h
        · exact hdigits h.1
        · exact hdigits h.2.1

/-- The address two is accepted, and properly. -/
theorem readProperly_two :
    ofRawValue reference Address.two.value = some Address.two ∧
      ((∀ a, ofRawValue reference Address.two.value = some a →
          ReadProperly reference Address.two.value a) ↔
        reference.bigInt (rawDigits Address.two.value) 16 = none ∨
          ((∀ c ∈ rawDigits Address.two.value, c ∈ Bytes.hexDigits) ∧
            (rawDigits Address.two.value).length ∉ [0, 39, 40]) ∨
          IsProper Address.two.value) := by
  obtain ⟨hwellFormed, hread⟩ := readProperly_iff reference_documented reference_readsNumerals
  exact ⟨hwellFormed _ (Address.wellFormed_of_digits (by decide)), hread _⟩

/-- Forty digits without the mark are accepted, and so is a minus sign with one digit. -/
theorem not_readProperly_unmarked :
    (∃ a, ofRawValue reference (List.replicate 40 '1') = some a ∧
      ¬ ReadProperly reference (List.replicate 40 '1') a) ∧
      ∃ a, ofRawValue reference ['-', '1'] = some a ∧ ¬ ReadProperly reference ['-', '1'] a := by
  have hunmarked : ofRawValue reference (List.replicate 40 '1') = some ⟨List.replicate 40 '1'⟩ := by
    decide +kernel
  have hsigned : ofRawValue reference ['-', '1'] = some ⟨['-', '1']⟩ := by decide +kernel
  constructor
  · refine ⟨_, hunmarked, ?_⟩
    intro h
    exact absurd h.mark (by decide)
  · refine ⟨_, hsigned, ?_⟩
    intro h
    exact absurd h.mark (by decide)

end Address

end MultisigWallet
