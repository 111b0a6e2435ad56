import MultisigWallet.Reference

/-!
# MultisigWallet.AddressFormatter

`EthereumAddressFormatter` writes an address for the screen: 20 bytes as 40 digits in one of
three letter cases, all of them or the two ends around an ellipsis. It also takes text, which is
how the screens tell whether an address was entered.

Text that the formatter wrote in full is read back as the bytes it was written from, so that
formatting twice is formatting once. The `assert`s on the lengths are not checked in the program
that is shipped and are left out.
-/

namespace MultisigWallet

/-- `EthereumAddressFormatterHexMode`. -/
inductive HexMode
  | lowercased
  | uppercased
  | mixedcased
  deriving DecidableEq, Repr

/-- `EthereumAddressFormatterTruncationMode`. -/
inductive TruncationMode
  | off
  | head
  | tail
  | middle
  deriving DecidableEq, Repr

structure EthereumAddressFormatter where
  hexMode : HexMode := .lowercased
  truncationMode : TruncationMode := .off
  maximumAddressLength : Int := 40
  usesHeadTailSplit : Bool := false
  headLength : Int := 20
  tailLength : Int := 20
  usesHexPrefix : Bool := true
  deriving DecidableEq, Repr

/-- `uppercased()` on ASCII strings. -/
def uppercased (s : Str) : Str := s.map Char.toUpper

/-- `prefix(_:)` of a string. -/
def firstCharacters (maxLength : Int) (s : Str) : Except Trap Str := do
  precondition (decide (0 ≤ maxLength)) "Can't take a prefix of negative length from a collection"
  return s.take maxLength.toNat

/-- `suffix(_:)` of a string. -/
def lastCharacters (maxLength : Int) (s : Str) : Except Trap Str := do
  precondition (decide (0 ≤ maxLength)) "Can't take a suffix of negative length from a collection"
  return s.drop (s.length - maxLength.toNat)

namespace EthereumAddressFormatter

def addressSizeInBytes : Nat := 20
def addressSizeInCharacters : Nat := 40

def ellipsisCharacter : Str := ['…']

variable (lib : ThirdParty) (f : EthereumAddressFormatter)

/-- `HexMode.string(from:)` and its overrides. -/
def hexString (value : Data) : Str :=
  match f.hexMode with
  | .lowercased => lowercased (Bytes.toHex value)
  | .uppercased => uppercased (Bytes.toHex value)
  | .mixedcased => lib.eip55 value

/-- `TruncationMode.string(from:)` and its overrides. -/
def truncatedString (value : Str) : Except Trap Str :=
  match f.truncationMode with
  | .off => .ok value
  | .head => do return ellipsisCharacter ++ (← lastCharacters (f.maximumAddressLength - 1) value)
  | .tail => do return (← firstCharacters (f.maximumAddressLength - 1) value) ++ ellipsisCharacter
  | .middle =>
      if f.usesHeadTailSplit then do
        return (← firstCharacters f.headLength value) ++ ellipsisCharacter ++
          (← lastCharacters f.tailLength value)
      else do
        let first := f.maximumAddressLength.tdiv 2
        let last := f.maximumAddressLength - first - 1
        return (← firstCharacters first value) ++ ellipsisCharacter ++ (← lastCharacters last value)

/-- `prefixed(_:)`. -/
def withHexPrefix (value : Str) : Str := if f.usesHexPrefix then lib.addHexPrefix value else value

/-- `string(from: Data)`. -/
def stringFromData (value : Data) : Except Trap Str := do
  let string ← f.truncatedString (f.hexString lib
    (leftPadded addressSizeInBytes (endTruncated addressSizeInBytes value)))
  return f.withHexPrefix lib string

/-- `data(from:)`. -/
def data (value : Str) : Option Data :=
  let string := (lib.stripHexPrefix value).take addressSizeInCharacters
  if (lib.bigInt string 16).isNone then none
  else
    let isOdd := string.length % 2 = 1
    some (lib.dataHex (if isOdd then '0' :: string else string))

/-- `string(from: String)`. -/
def string (value : Str) : Except Trap (Option Str) :=
  match data lib value with
  | none => .ok none
  | some data => do return some (← f.stringFromData lib data)

/-! ### Digits -/

variable {lib f} {d : Data} {s : Str}

theorem toUpper_mem_hexDigits :
    ∀ c ∈ Bytes.lowerHex, c.toUpper ∈ Bytes.hexDigits ∧ c.toUpper.toLower = c := by
  decide

theorem not_hexMark_of_digits (hs : ∀ c ∈ s, c ∈ Bytes.hexDigits) : ¬ hexMark <+: s := by
  intro h
  obtain ⟨t, rfl⟩ := h
  exact absurd (hs 'x' (by simp [hexMark])) (by decide)

theorem length_addressData (value : Data) :
    (leftPadded addressSizeInBytes (endTruncated addressSizeInBytes value)).length =
      addressSizeInBytes := by
  refine length_leftPadded ?_
  unfold endTruncated
  split
  · exact List.length_take_le _ _
  · omega

/-- In every letter case the bytes are written as their digits. -/
theorem hexString_digits (lib : ThirdParty) (f : EthereumAddressFormatter)
    (hd : d.length = addressSizeInBytes) :
    lowercased (f.hexString lib d) = Bytes.toHex d ∧
      ∀ c ∈ f.hexString lib d, c ∈ Bytes.hexDigits := by
  have hlower : ∀ c ∈ Bytes.toHex d, c ∈ Bytes.lowerHex := Bytes.mem_lowerHex_of_mem_toHex
  have hsame : lowercased (Bytes.toHex d) = Bytes.toHex d := by
    rw [lowercased, List.map_congr_left fun c hc =>
      Bytes.toLower_of_mem_lowerHex c (hlower c hc), List.map_id']
  unfold hexString
  cases f.hexMode with
  | lowercased =>
      refine ⟨by rw [hsame, hsame], fun c hc => ?_⟩
      rw [hsame] at hc
      exact Bytes.lowerHex_subset_hexDigits c (hlower c hc)
  | uppercased =>
      refine ⟨?_, fun c hc => ?_⟩
      · show lowercased (uppercased (Bytes.toHex d)) = _
        rw [lowercased, uppercased, List.map_map]
        refine (List.map_congr_left fun c hc => ?_).trans (List.map_id' _)
        exact (toUpper_mem_hexDigits c (hlower c hc)).2
      · obtain ⟨b, hb, rfl⟩ := List.mem_map.mp hc
        exact (toUpper_mem_hexDigits b (hlower b hb)).1
  | mixedcased => exact lib.eip55_digits d hd

theorem length_hexString (lib : ThirdParty) (f : EthereumAddressFormatter)
    (hd : d.length = addressSizeInBytes) :
    (f.hexString lib d).length = addressSizeInCharacters := by
  have hlength := congrArg List.length (hexString_digits lib f hd).1
  rw [lowercased, List.length_map, Bytes.length_toHex, hd] at hlength
  exact hlength

/-- Text of digits stands for the number of its first 40. -/
theorem data_digits {value : Str} (hvalue : lib.stripHexPrefix value = s) (hne : s ≠ [])
    (hs : ∀ c ∈ s, c ∈ Bytes.hexDigits) :
    ∃ d, data lib value = some d ∧ d.length ≤ addressSizeInBytes ∧
      Bytes.toNat d = Bytes.hexValue (s.take addressSizeInCharacters) := by
  have hdigits : ∀ c ∈ s.take addressSizeInCharacters, c ∈ Bytes.hexDigits :=
    fun c hc => hs c (List.mem_of_mem_take hc)
  have htake : s.take addressSizeInCharacters ≠ [] := by
    cases s with
    | nil => exact absurd rfl hne
    | cons c s => simp [addressSizeInCharacters]
  have hlength : (s.take addressSizeInCharacters).length ≤ addressSizeInCharacters :=
    List.length_take_le _ _
  unfold data
  rw [hvalue]
  generalize s.take addressSizeInCharacters = t at hdigits htake hlength
  simp only [lib.bigInt_hex t htake hdigits, Option.isNone_some, Bool.false_eq_true, if_false]
  refine ⟨_, rfl, ?_⟩
  -- With the zero in front the digits are those of whole bytes.
  rw [addressSizeInCharacters] at hlength
  by_cases hodd : t.length % 2 = 1
  · have hzero : ∀ c ∈ '0' :: t, c ∈ Bytes.hexDigits := by
      intro c hc
      rcases List.mem_cons.mp hc with rfl | hc
      · decide
      · exact hdigits c hc
    have heven : ('0' :: t).length % 2 = 0 := by
      rw [List.length_cons]
      omega
    rw [if_pos hodd, lib.dataHex_digits _ hzero heven, Bytes.length_ofHex, Bytes.toNat_ofHex heven]
    refine ⟨?_, by simp [Bytes.hexVal]⟩
    rw [List.length_cons, addressSizeInBytes]
    omega
  · have heven : t.length % 2 = 0 := by omega
    rw [if_neg hodd, lib.dataHex_digits _ hdigits heven, Bytes.length_ofHex,
      Bytes.toNat_ofHex heven]
    refine ⟨?_, rfl⟩
    rw [addressSizeInBytes]
    omega

/-! ### Reading back -/

theorem endTruncated_of_le (hd : d.length ≤ addressSizeInBytes) :
    endTruncated addressSizeInBytes d = d := by
  rw [endTruncated, if_neg (Nat.not_lt_of_le hd)]

/-- Only the number of at most 20 bytes counts. -/
theorem stringFromData_of_toNat {d d' : Data} (hd : d.length ≤ addressSizeInBytes)
    (hd' : d'.length ≤ addressSizeInBytes) (h : Bytes.toNat d = Bytes.toNat d') :
    f.stringFromData lib d = f.stringFromData lib d' := by
  have hsame : leftPadded addressSizeInBytes d = leftPadded addressSizeInBytes d' := by
    refine Bytes.toNat_inj ?_ ?_
    · rw [length_leftPadded hd, length_leftPadded hd']
    · rw [toNat_leftPadded, toNat_leftPadded, h]
  rw [stringFromData, stringFromData, endTruncated_of_le hd, endTruncated_of_le hd', hsame]

theorem strip_withHexPrefix (hs : ∀ c ∈ s, c ∈ Bytes.hexDigits) :
    lib.stripHexPrefix (f.withHexPrefix lib s) = s := by
  unfold withHexPrefix
  split
  · rw [lib.addHexPrefix_digits s hs, lib.stripHexPrefix_mark]
  · exact lib.stripHexPrefix_noMark s (not_hexMark_of_digits hs)

theorem stringFromData_off (hoff : f.truncationMode = .off) (value : Data) :
    f.stringFromData lib value = .ok (f.withHexPrefix lib (f.hexString lib
      (leftPadded addressSizeInBytes (endTruncated addressSizeInBytes value)))) := by
  rw [stringFromData, truncatedString, hoff]
  rfl

theorem string_of_data {value : Str} (hd : data lib value = some d) :
    f.string lib value = (f.stringFromData lib d).map some := by
  rw [string, hd]
  show (f.stringFromData lib d >>= fun s => pure (some s)) = _
  cases f.stringFromData lib d with
  | error e => rfl
  | ok t => rfl

/-- Padding and cutting a second time changes nothing. -/
theorem stringFromData_addressData (g : EthereumAddressFormatter) (value : Data) :
    g.stringFromData lib (leftPadded addressSizeInBytes (endTruncated addressSizeInBytes value)) =
      g.stringFromData lib value := by
  have hlength := length_addressData value
  have hpadded : ∀ d : Data, d.length = addressSizeInBytes →
      leftPadded addressSizeInBytes (endTruncated addressSizeInBytes d) = d := by
    intro d hd
    rw [endTruncated_of_le (Nat.le_of_eq hd), leftPadded, if_pos (Nat.le_of_eq hd.symm)]
  rw [stringFromData, stringFromData, hpadded _ hlength]

/-- Text that was written in full stands for the bytes it was written from: whatever formatter
reads it, in whatever letter case and with or without the mark, writes what it would have written
for the bytes. Formatting twice is formatting once. -/
theorem string_stringFromData (lib : ThirdParty) (f g : EthereumAddressFormatter)
    (hoff : f.truncationMode = .off) (value : Data) : ∃ s, f.stringFromData lib value = .ok s ∧
      g.string lib s = (g.stringFromData lib value).map some := by
  refine ⟨_, stringFromData_off hoff value, ?_⟩
  have hlength := length_addressData value
  rw [← stringFromData_addressData g value]
  generalize leftPadded addressSizeInBytes (endTruncated addressSizeInBytes value) = d at hlength
  obtain ⟨hlow, hdigits⟩ := hexString_digits lib f hlength
  have hcount := length_hexString lib f hlength
  have hne : f.hexString lib d ≠ [] := by
    intro h
    rw [h] at hcount
    cases hcount
  obtain ⟨d', hd', hle, hnumber⟩ := data_digits (strip_withHexPrefix (f := f) hdigits) hne hdigits
  have hsame : Bytes.toNat d' = Bytes.toNat d := by
    rw [hnumber, List.take_of_length_le (Nat.le_of_eq hcount),
      ← Bytes.hexValue_map_toLower hdigits, ← Bytes.hexValue_toHex, ← hlow]
    rfl
  rw [string_of_data hd', stringFromData_of_toNat hle (Nat.le_of_eq hlength) hsame]

/-- One byte, in upper case and without the mark, and formatted again. -/
theorem string_stringFromData_byte : ∃ s,
    stringFromData reference { hexMode := .uppercased, usesHexPrefix := false } [0xab] = .ok s ∧
      string reference {} s = .ok (some (hexMark ++ List.replicate 38 '0' ++ ['a', 'b'])) := by
  obtain ⟨s, hs, hstring⟩ := string_stringFromData reference
    { hexMode := .uppercased, usesHexPrefix := false } {} rfl [0xab]
  exact ⟨s, hs, hstring.trans rfl⟩

/-! ### Truncation -/

/-- How many digits are shown. -/
def visibleLength (f : EthereumAddressFormatter) : Int :=
  if f.truncationMode = .middle ∧ f.usesHeadTailSplit = true then f.headLength + f.tailLength
  else f.maximumAddressLength - 1

/-- No length is negative, and there are no more digits to show than an address has. -/
def FitsAddress (f : EthereumAddressFormatter) : Prop :=
  f.visibleLength ≤ addressSizeInCharacters ∧
    if f.truncationMode = .middle ∧ f.usesHeadTailSplit = true then
      0 ≤ f.headLength ∧ 0 ≤ f.tailLength
    else 1 ≤ f.maximumAddressLength

theorem firstCharacters_ok {n : Nat} (s : Str) : firstCharacters n s = .ok (s.take n) := by
  simp [firstCharacters, precondition, bind, Except.bind, pure, Except.pure]

theorem lastCharacters_ok {n : Nat} (s : Str) :
    lastCharacters n s = .ok (s.drop (s.length - n)) := by
  simp [lastCharacters, precondition, bind, Except.bind, pure, Except.pure]

/-- The two ends of a text, with what is between them. -/
theorem ends {first last : Nat} (h : first + last ≤ s.length) :
    ∃ between, s = s.take first ++ between ++ s.drop (s.length - last) ∧
      (s.take first).length + (s.drop (s.length - last)).length = first + last := by
  refine ⟨(s.drop first).take (s.length - last - first), ?_, ?_⟩
  · have hsplit : s.drop (s.length - last) = (s.drop first).drop (s.length - last - first) := by
      rw [List.drop_drop]
      congr 1
      omega
    rw [List.append_assoc, hsplit, List.take_append_drop, List.take_append_drop]
  · rw [List.length_take, List.length_drop]
    omega

/-- The two lengths an address is cut to. -/
theorem truncatedString_ends (hon : f.truncationMode ≠ .off) (hfits : f.FitsAddress) (s : Str) :
    ∃ first last : Nat, (first + last : Int) = f.visibleLength ∧
      f.truncatedString s =
        .ok (s.take first ++ ellipsisCharacter ++ s.drop (s.length - last)) := by
  unfold FitsAddress at hfits
  unfold visibleLength at hfits ⊢
  unfold truncatedString
  cases hmode : f.truncationMode with
  | off => exact absurd hmode hon
  | head =>
      simp only [hmode, reduceCtorEq, false_and, if_false] at hfits ⊢
      obtain ⟨last, hlast⟩ := Int.eq_ofNat_of_zero_le (Int.sub_nonneg_of_le hfits.2)
      refine ⟨0, last, by rw [hlast]; simp, ?_⟩
      rw [hlast, lastCharacters_ok]
      rfl
  | tail =>
      simp only [hmode, reduceCtorEq, false_and, if_false] at hfits ⊢
      obtain ⟨first, hfirst⟩ := Int.eq_ofNat_of_zero_le (Int.sub_nonneg_of_le hfits.2)
      refine ⟨first, 0, by rw [hfirst]; simp, ?_⟩
      rw [hfirst, firstCharacters_ok]
      simp [bind, Except.bind, pure, Except.pure]
  | middle =>
      simp only [hmode, true_and] at hfits ⊢
      cases hsplit : f.usesHeadTailSplit with
      | true =>
          simp only [hsplit, if_true] at hfits ⊢
          obtain ⟨first, hfirst⟩ := Int.eq_ofNat_of_zero_le hfits.2.1
          obtain ⟨last, hlast⟩ := Int.eq_ofNat_of_zero_le hfits.2.2
          refine ⟨first, last, by rw [hfirst, hlast], ?_⟩
          rw [hfirst, hlast, firstCharacters_ok, lastCharacters_ok]
          rfl
      | false =>
          simp only [hsplit, Bool.false_eq_true, if_false] at hfits ⊢
          -- The halves of a positive length, one character taken for the ellipsis.
          have hmax := hfits.2
          have hhalf : f.maximumAddressLength.tdiv 2 = f.maximumAddressLength / 2 :=
            Int.tdiv_eq_ediv_of_nonneg (by omega)
          obtain ⟨first, hfirst⟩ : ∃ n : Nat, f.maximumAddressLength.tdiv 2 = n :=
            Int.eq_ofNat_of_zero_le (by omega)
          obtain ⟨last, hlast⟩ :
              ∃ n : Nat, f.maximumAddressLength - f.maximumAddressLength.tdiv 2 - 1 = n :=
            Int.eq_ofNat_of_zero_le (by omega)
          refine ⟨first, last, by omega, ?_⟩
          rw [hlast, hfirst, firstCharacters_ok, lastCharacters_ok]
          rfl

/-- A truncated address shows its two ends: the digits before and after the ellipsis are the
first and the last of the address, they do not overlap, and there are as many as were asked for. -/
theorem stringFromData_truncated (lib : ThirdParty) (hon : f.truncationMode ≠ .off)
    (hfits : f.FitsAddress)
    (value : Data) : ∃ first between last,
      f.hexString lib (leftPadded addressSizeInBytes (endTruncated addressSizeInBytes value)) =
        first ++ between ++ last ∧
      f.stringFromData lib value =
        .ok (f.withHexPrefix lib (first ++ ellipsisCharacter ++ last)) ∧
      (first.length + last.length : Int) = f.visibleLength := by
  have hlength := length_hexString lib f (length_addressData value)
  obtain ⟨first, last, hvisible, hstring⟩ := truncatedString_ends hon hfits
    (f.hexString lib (leftPadded addressSizeInBytes (endTruncated addressSizeInBytes value)))
  have hle : first + last ≤ (f.hexString lib
      (leftPadded addressSizeInBytes (endTruncated addressSizeInBytes value))).length := by
    have hfit := hfits.1
    rw [hlength]
    omega
  obtain ⟨between, hsplit, hshown⟩ := ends hle
  refine ⟨_, between, _, hsplit, ?_, ?_⟩
  · rw [stringFromData, hstring]
    rfl
  · rw [← hvisible, ← Int.natCast_add, hshown, Int.natCast_add]

/-- The labels of the app: two digits, the ellipsis, four digits. -/
theorem stringFromData_truncated_split : ∃ first last,
    stringFromData reference
        { truncationMode := .middle, usesHeadTailSplit := true, headLength := 2, tailLength := 4 }
        [1, 2, 3] = .ok (hexMark ++ (first ++ ellipsisCharacter ++ last)) ∧
      (first.length + last.length : Int) = 6 := by
  obtain ⟨first, between, last, -, hstring, hlength⟩ := stringFromData_truncated
    (f := ⟨.lowercased, .middle, 40, true, 2, 4, true⟩) reference (by decide)
    ⟨by decide, by decide⟩ [1, 2, 3]
  exact ⟨first, last, hstring, hlength⟩

end EthereumAddressFormatter

end MultisigWallet
