import MultisigWallet.Lib.Decimal
import MultisigWallet.Message
import MultisigWallet.Reference

/-!
# MultisigWallet.SignatureBounds

Which signatures the messaging layer lets in. `ECDSASignatureBounds` is written after the ranges of
a valid signature, which begin at one; the half-open ranges of the code begin at zero, and `BigUInt`
reads the empty string as zero. What is let in is read again by another parser, `BInt`, for which
the empty string is no number.
-/

namespace MultisigWallet

/-- What the two big-integer packages make of a string in base 10. -/
structure ThirdParty.ReadsDecimals (lib : ThirdParty) : Prop where
  /-- `BigUInt(_:)` reads strings of digits and no others, the empty one as zero. -/
  bigUInt_eq : ∀ s, lib.bigUInt s =
    if s.all Char.isDigit then some (Nat.ofDigitChars 10 s 0) else none
  /-- `BInt(_:radix: 10)` reads strings of at least one digit and no others. -/
  bInt_eq : ∀ s, lib.bInt s = (digitsOfString s).map fun n => (n : Int)

namespace ECDSASignatureBounds

/-- `s` is a numeral of a number for which `p` holds. -/
def Denotes (s : Str) (p : Nat → Prop) : Prop := ∃ n, digitsOfString s = some n ∧ p n

/-- The components of a valid signature. -/
structure Valid (r s : Str) (v : Int) : Prop where
  r_bounds : Denotes r fun n => 0 < n ∧ n < secp256k1n
  s_bounds : Denotes s fun n => 0 < n ∧ n < secp256k1n / 2 + 1
  v_bounds : v = 27 ∨ v = 28

/-- A string that is empty or of zeros alone. -/
def OnlyZeros (s : Str) : Prop := ∀ c ∈ s, c = '0'

/-- A character that is no digit, a component at or above its upper bound, or another `v`. -/
def Excluded (r s : Str) (v : Int) : Prop :=
  (∃ c ∈ r ++ s, c.isDigit = false) ∨ secp256k1n ≤ Decimal.value r ∨
    secp256k1n / 2 + 1 ≤ Decimal.value s ∨ (v ≠ 27 ∧ v ≠ 28)

variable {lib : ThirdParty} {r s : Str} {v : Int}

theorem digitsOfString_eq_some {n : Nat} :
    digitsOfString s = some n ↔ s ≠ [] ∧ s.all Char.isDigit = true ∧ Decimal.value s = n := by
  unfold digitsOfString
  rw [Option.ite_none_right_eq_some, Option.some.injEq, and_assoc]
  rfl

theorem denotes_iff {p : Nat → Prop} :
    Denotes s p ↔ s ≠ [] ∧ s.all Char.isDigit = true ∧ p (Decimal.value s) := by
  constructor
  · intro h
    obtain ⟨n, hn, hp⟩ := h
    obtain ⟨hne, hdigits, rfl⟩ := digitsOfString_eq_some.mp hn
    exact ⟨hne, hdigits, hp⟩
  · intro h
    exact ⟨_, digitsOfString_eq_some.mpr ⟨h.1, h.2.1, rfl⟩, h.2.2⟩

/-- Of the strings of digits, the positive numerals are those that are not of zeros alone. -/
theorem denotes_positive {p : Nat → Prop} (hs : s.all Char.isDigit = true) :
    Denotes s (fun n => 0 < n ∧ p n) ↔ ¬ OnlyZeros s ∧ p (Decimal.value s) := by
  have hzero : Decimal.value s = 0 ↔ OnlyZeros s := Decimal.value_eq_zero (List.all_eq_true.mp hs)
  rw [denotes_iff, Nat.pos_iff_ne_zero, ← hzero]
  constructor
  · intro h
    exact h.2.2
  · intro h
    refine ⟨?_, hs, h⟩
    rw [hzero] at h
    rintro rfl
    exact h.1 fun c hc => absurd hc List.not_mem_nil

/-- What is within the bounds of the code. -/
theorem isWithinBounds_iff (hlib : lib.ReadsDecimals) :
    isWithinBounds lib r s v = true ↔
      (r.all Char.isDigit = true ∧ s.all Char.isDigit = true) ∧ Decimal.value r < secp256k1n ∧
        Decimal.value s < secp256k1n / 2 + 1 ∧ (v = 27 ∨ v = 28) := by
  unfold isWithinBounds
  rw [hlib.bigUInt_eq, hlib.bigUInt_eq]
  cases hr : r.all Char.isDigit with
  | false => simp
  | true =>
      cases hs : s.all Char.isDigit with
      | false => simp
      | true =>
          have hv : (27 ≤ v ∧ v ≤ 28) ↔ (v = 27 ∨ v = 28) := by omega
          simp only [if_true, Bool.and_eq_true, decide_eq_true_eq, hv, and_true, true_and, and_assoc]
          rfl

theorem excluded_iff (hlib : lib.ReadsDecimals) :
    Excluded r s v ↔ isWithinBounds lib r s v = false := by
  have hdigits : (∃ c ∈ r ++ s, c.isDigit = false) ↔
      ¬ (r.all Char.isDigit = true ∧ s.all Char.isDigit = true) := by
    rw [← Bool.and_eq_true, ← List.all_append, Bool.not_eq_true, List.all_eq_false]
    simp only [Bool.not_eq_true]
  rw [Bool.eq_false_iff, Ne, isWithinBounds_iff hlib, Excluded, hdigits]
  simp only [not_and_or, not_lt, not_or]

/-- The code agrees with the ranges exactly where a zero makes no difference. -/
theorem isWithinBounds_valid_iff (hlib : lib.ReadsDecimals) (r s : Str) (v : Int) :
    (isWithinBounds lib r s v = true ↔ Valid r s v) ↔
      Excluded r s v ∨ (¬ OnlyZeros r ∧ ¬ OnlyZeros s) := by
  cases hbounds : isWithinBounds lib r s v with
  | false =>
      refine iff_of_true ⟨fun h => absurd h Bool.false_ne_true, fun h => ?_⟩
        (.inl ((excluded_iff hlib).mpr hbounds))
      obtain ⟨-, hr, hrp⟩ := denotes_iff.mp h.r_bounds
      obtain ⟨-, hs, hsp⟩ := denotes_iff.mp h.s_bounds
      exact hbounds ▸ (isWithinBounds_iff hlib).mpr ⟨⟨hr, hs⟩, hrp.2, hsp.2, h.v_bounds⟩
  | true =>
      obtain ⟨⟨hr, hs⟩, hrlt, hslt, hv⟩ := (isWithinBounds_iff hlib).mp hbounds
      have hexcluded : ¬ Excluded r s v := by
        rw [excluded_iff hlib, hbounds]
        exact Bool.true_eq_false_eq_False
      rw [or_iff_right hexcluded]
      constructor
      · intro h
        have hvalid := h.mp rfl
        exact ⟨((denotes_positive hr).mp hvalid.r_bounds).1,
          ((denotes_positive hs).mp hvalid.s_bounds).1⟩
      · intro h
        exact iff_of_true rfl
          ⟨(denotes_positive hr).mpr ⟨h.1, hrlt⟩, (denotes_positive hs).mpr ⟨h.2, hslt⟩, hv⟩

end ECDSASignatureBounds

/-! ### The signatures of messages -/

/-- The signature a message carries. -/
def Message.signature : Message → EthSignature
  | .transactionConfirmed message => message.signature
  | .transactionRejected message => message.signature
  | .sendTransaction message => message.signature

variable {lib : ThirdParty} {userInfo : UserInfo}

/-- A signature that was read from a dictionary. -/
structure ReadFrom (lib : ThirdParty) (userInfo : UserInfo) (signature : EthSignature) : Prop where
  r_eq : userInfo "r" = some signature.r
  s_eq : userInfo "s" = some signature.s
  within : ECDSASignatureBounds.isWithinBounds lib signature.r signature.s signature.v = true

theorem TransactionDecisionMessage.readFrom {messageType : String} {m : TransactionDecisionMessage}
    (h : TransactionDecisionMessage.ofUserInfo lib messageType userInfo = some m) :
    ReadFrom lib userInfo m.signature := by
  unfold TransactionDecisionMessage.ofUserInfo at h
  -- the type and the hash
  iterate 4 obtain ⟨_, -, h⟩ := Option.bind_eq_some_iff.mp h
  obtain ⟨r, hr, h⟩ := Option.bind_eq_some_iff.mp h
  obtain ⟨s, hs, h⟩ := Option.bind_eq_some_iff.mp h
  obtain ⟨_, -, h⟩ := Option.bind_eq_some_iff.mp h
  obtain ⟨v, -, h⟩ := Option.bind_eq_some_iff.mp h
  obtain ⟨_, hwithin, h⟩ := Option.bind_eq_some_iff.mp h
  obtain rfl := Option.some.inj h
  refine ⟨hr, hs, ?_⟩
  by_contra hout
  rw [guard, if_neg hout] at hwithin
  cases hwithin

theorem SendTransactionMessage.readFrom {m : SendTransactionMessage}
    (h : SendTransactionMessage.ofUserInfo lib userInfo = some m) :
    ReadFrom lib userInfo m.signature :=
  TransactionDecisionMessage.readFrom (isRead_of_ofUserInfo h).decision

theorem Message.readFrom {m : Message} (h : Message.create lib userInfo = some m) :
    ReadFrom lib userInfo m.signature := by
  unfold Message.create at h
  split at h
  · rename_i message hmessage
    obtain rfl := Option.some.inj h
    exact TransactionDecisionMessage.readFrom hmessage
  · split at h
    · rename_i message hmessage
      obtain rfl := Option.some.inj h
      exact TransactionDecisionMessage.readFrom hmessage
    · obtain ⟨message, hmessage, rfl⟩ := Option.map_eq_some_iff.mp h
      exact SendTransactionMessage.readFrom hmessage

/-- A signature is read again if its components are numerals. -/
theorem dataFromSignature_isOk (hlib : lib.ReadsDecimals) (signature : EthSignature) :
    (∃ data, EncryptionService.dataFromSignature lib signature = .ok data) ↔
      (∃ n, digitsOfString signature.r = some n) ∧ ∃ n, digitsOfString signature.s = some n := by
  unfold EncryptionService.dataFromSignature
  rw [hlib.bInt_eq, hlib.bInt_eq]
  cases digitsOfString signature.r <;> cases digitsOfString signature.s <;>
    simp [unwrap, bind, Except.bind, pure, Except.pure]

theorem ReadFrom.dataFromSignature_isOk (hlib : lib.ReadsDecimals) {signature : EthSignature}
    (h : ReadFrom lib userInfo signature) :
    (∃ data, EncryptionService.dataFromSignature lib signature = .ok data) ↔
      userInfo "r" ≠ some [] ∧ userInfo "s" ≠ some [] := by
  obtain ⟨⟨hr, hs⟩, -⟩ := (ECDSASignatureBounds.isWithinBounds_iff hlib).mp h.within
  have hnumeral : ∀ {t : Str}, t.all Char.isDigit = true →
      ((∃ n, digitsOfString t = some n) ↔ some t ≠ some []) := by
    intro t ht
    rw [Ne, Option.some.injEq]
    constructor
    · intro hn
      obtain ⟨n, hn⟩ := hn
      exact (ECDSASignatureBounds.digitsOfString_eq_some.mp hn).1
    · intro hne
      exact ⟨_, ECDSASignatureBounds.digitsOfString_eq_some.mpr ⟨hne, ht, rfl⟩⟩
  rw [MultisigWallet.dataFromSignature_isOk hlib, h.r_eq, h.s_eq, hnumeral hr, hnumeral hs]

/-- The bounds are those of a valid signature unless a component that is empty or zero makes the
difference, and the signature of a message is read again unless a component is empty. -/
theorem signatureBounds_iff (hlib : lib.ReadsDecimals) :
    (∀ (r s : Str) (v : Int),
      (ECDSASignatureBounds.isWithinBounds lib r s v = true ↔ ECDSASignatureBounds.Valid r s v) ↔
        ECDSASignatureBounds.Excluded r s v ∨
          (¬ ECDSASignatureBounds.OnlyZeros r ∧ ¬ ECDSASignatureBounds.OnlyZeros s)) ∧
      ∀ (userInfo : UserInfo) (m : Message), Message.create lib userInfo = some m →
        ((∃ data, EncryptionService.dataFromSignature lib m.signature = .ok data) ↔
          userInfo "r" ≠ some [] ∧ userInfo "s" ≠ some []) :=
  ⟨ECDSASignatureBounds.isWithinBounds_valid_iff hlib,
    fun _ _ h => (Message.readFrom h).dataFromSignature_isOk hlib⟩

/-- The packages, with a `BInt` that reads numerals only. -/
def strictReference : ThirdParty :=
  { reference with bInt := fun s => (digitsOfString s).map fun n => (n : Int) }

theorem strictReference_readsDecimals : strictReference.ReadsDecimals where
  bigUInt_eq s := by
    show Reference.magnitude s 10 = _
    rw [Reference.magnitude, if_neg (by simp)]
    simp
  bInt_eq _ := rfl

/-- A confirmation with a given `r`. -/
def confirmationInfo (r : Str) : UserInfo := fun key =>
  List.lookup key [
    ("type", "confirmTransaction".toList),
    ("hash", "0x12".toList),
    ("r", r),
    ("s", "1".toList),
    ("v", "28".toList)]

theorem signatureBounds_iff_confirmation :
    (ECDSASignatureBounds.isWithinBounds strictReference ['1'] ['1'] 28 = true ↔
      ECDSASignatureBounds.Valid ['1'] ['1'] 28) ∧
      ∃ data, EncryptionService.dataFromSignature strictReference ⟨['1'], ['1'], 28⟩ = .ok data :=
  have h := signatureBounds_iff strictReference_readsDecimals
  ⟨(h.1 ['1'] ['1'] 28).mpr (.inr ⟨fun hzeros => absurd (hzeros '1' List.mem_cons_self) (by decide),
      fun hzeros => absurd (hzeros '1' List.mem_cons_self) (by decide)⟩),
    (h.2 (confirmationInfo ['1']) (.transactionConfirmed ⟨[0x12], ⟨['1'], ['1'], 28⟩⟩)
      (by decide +kernel)).mpr ⟨by decide, by decide⟩⟩

/-- An empty `r` is within the bounds, is no numeral, and stops the app when it is read again. -/
theorem not_valid_emptyR :
    ECDSASignatureBounds.isWithinBounds strictReference [] ['1'] 28 = true ∧
      ¬ ECDSASignatureBounds.Valid [] ['1'] 28 ∧
      Message.create strictReference (confirmationInfo []) =
        some (.transactionConfirmed ⟨[0x12], ⟨[], ['1'], 28⟩⟩) ∧
      ¬ ∃ data, EncryptionService.dataFromSignature strictReference ⟨[], ['1'], 28⟩ = .ok data := by
  refine ⟨by decide +kernel, fun h => ?_, by decide +kernel, fun h => ?_⟩
  · obtain ⟨n, hn, -⟩ := h.r_bounds
    cases hn
  · obtain ⟨data, h⟩ := h
    cases h

end MultisigWallet
