import MultisigWallet.ContractProxySound
import MultisigWallet.Reference
import MultisigWallet.SafeCreation

/-!
# MultisigWallet.ContractDecoding

What the contract proxies make of any byte string. Each decoder has one equation in terms of the
words at an offset.
-/

namespace MultisigWallet

namespace EthereumContractProxy

/-! ### Arrays -/

/-- Where an array begins, by the first word. -/
def arrayOffset (d : Data) : Nat := Abi.wordAt d 0

/-- How many items the array says it has. -/
def arrayCount (d : Data) : Nat := Abi.wordAt d (arrayOffset d)

/-- Where the items begin. -/
def itemsOffset (d : Data) : Nat := arrayOffset d + 32

/-- Where the items end. -/
def itemsEnd (d : Data) : Nat := itemsOffset d + 32 * arrayCount d

theorem decodeTupleUInt_eq (d : Data) (n : Nat) :
    decodeTupleUInt d n =
      if isInt (n * 32) then .ok (if d.length < 32 * n then [] else Abi.wordsAt d 0 n)
      else .error .overflow := by
  have hword : ∀ i, decodeUInt ((d.drop (32 * i)).take 32) = Abi.wordAt d (0 + 32 * i) := by
    intro i
    rw [decodeUInt_eq, Abi.wordAt, List.drop_zero, List.take_take, Nat.min_self, Abi.wordAt,
      Nat.zero_add]
  unfold decodeTupleUInt
  by_cases hint : isInt (n * 32) = true
  · simp only [hint, if_true, hword, Nat.mul_comm n 32]
    by_cases hlen : d.length < 32 * n
    · simp [hlen, bind, Except.bind, pure, Except.pure]
    · simp [hlen, Abi.wordsAt, bind, Except.bind, pure, Except.pure]
  · simp [hint, bind, Except.bind]

/-- Only an array that ends where the data ends is read. -/
theorem decodeArrayUInt_eq (d : Data) :
    decodeArrayUInt d =
      if d.length ≤ arrayOffset d ∨ itemsEnd d < d.length then .ok []
      else if d.length < itemsOffset d then .error .removeFirst
      else if isInt (arrayCount d * 32) then
        .ok (if itemsEnd d = d.length then Abi.wordsAt d (itemsOffset d) (arrayCount d) else [])
      else .error .overflow := by
  have hoffset : decodeUInt d = arrayOffset d := decodeUInt_eq d
  have hcount : decodeUInt (d.drop (arrayOffset d)) = arrayCount d := by
    rw [decodeUInt_eq, Abi.wordAt_drop]
    rfl
  have hwords : ∀ n, Abi.wordsAt (d.drop (arrayOffset d + 32)) 0 n = Abi.wordsAt d (itemsOffset d) n :=
    fun n => by rw [Abi.wordsAt_drop]; rfl
  cases hd : d.isEmpty with
  | true =>
      obtain rfl := List.isEmpty_iff.mp hd
      rfl
  | false =>
      have hpos : 0 < d.length := List.length_pos_iff.mpr (List.isEmpty_eq_false_iff.mp hd)
      unfold decodeArrayUInt
      rw [if_neg (by simp [hd])]
      simp only [hoffset, hcount, List.length_drop, List.drop_drop]
      by_cases hpast : d.length ≤ arrayOffset d
      · rw [if_neg (Nat.not_lt.mpr hpast), if_pos (.inl hpast)]
      · rw [if_pos (Nat.lt_of_not_le hpast)]
        unfold itemsEnd
        by_cases hlong : itemsOffset d + 32 * arrayCount d < d.length
        · rw [if_neg (by unfold itemsOffset at hlong; omega), if_pos (.inr hlong)]
        · rw [if_pos (by unfold itemsOffset at hlong; omega), if_neg (not_or.mpr ⟨hpast, hlong⟩)]
          by_cases hshort : d.length < itemsOffset d
          · rw [if_pos hshort, if_pos (by unfold itemsOffset at hshort; omega)]
            rfl
          · rw [if_neg hshort, if_neg (by unfold itemsOffset at hshort; omega)]
            simp only [decodeTupleUInt_eq, List.length_drop, hwords]
            by_cases hint : isInt (arrayCount d * 32) = true
            · have hcountInt : isInt (arrayCount d) = true := by
                simp only [isInt, Bool.and_eq_true, decide_eq_true_eq] at hint ⊢
                omega
              have hwhole : d.length - (arrayOffset d + 32) < 32 * arrayCount d ↔
                  ¬ itemsOffset d + 32 * arrayCount d = d.length := by
                unfold itemsOffset at hlong hshort ⊢
                omega
              rw [if_pos hcountInt, if_pos hint, if_pos hint, if_congr hwhole rfl rfl, ite_not]
            · rw [if_neg hint, if_neg hint, ite_self]

theorem decodeBytes_eq (d : Data) :
    decodeBytes d = if isInt (Abi.wordAt d 0) then .ok (Abi.bytesAt d 0) else .error .overflow := by
  simp only [decodeBytes, decodeUInt_eq, Abi.bytesAt, Nat.zero_add]

theorem decodeAddress_eq (lib : ThirdParty) (d : Data) :
    decodeAddress lib d = addressOfUInt lib (Abi.wordAt d 0) := by
  rw [decodeAddress, decodeUInt_eq]

/-- Decoding stops at no address. -/
theorem decodeArrayAddress_isOk (lib : ThirdParty) (d : Data) :
    (∃ addresses, decodeArrayAddress lib d = .ok addresses) ↔ ∃ xs, decodeArrayUInt d = .ok xs := by
  rw [decodeArrayAddress, bind_isOk]
  constructor
  · intro h
    obtain ⟨xs, hxs, -⟩ := h
    exact ⟨xs, hxs⟩
  · intro h
    obtain ⟨xs, hxs⟩ := h
    exact ⟨xs, hxs, _, rfl⟩

end EthereumContractProxy

open EthereumContractProxy

/-! ### The set-up call -/

namespace GnosisSafeContractProxy

theorem removeFirst_ok {n : Nat} {d d' : Data} :
    ERC20TokenContractProxy.removeFirst n d = .ok d' ↔ n ≤ d.length ∧ d.drop n = d' := by
  unfold ERC20TokenContractProxy.removeFirst
  split
  · simp only [reduceCtorEq, false_iff]
    omega
  · simp only [Except.ok.injEq, iff_and_self]
    omega

theorem intOfUInt_ok {n m : Nat} : intOfUInt n = .ok m ↔ isInt n = true ∧ n = m := by
  unfold intOfUInt
  split <;> simp_all

theorem advanced_ok {n : Nat} {d d' : Data} :
    advanced n d = .ok d' ↔ n < d.length ∧ d.drop n = d' := by
  unfold advanced precondition
  by_cases h : n < d.length <;> simp [h, bind, Except.bind, pure, Except.pure]

/-- The loop reads as many words as it is asked for. -/
theorem decodeOwners_ok (lib : ThirdParty) {n : Nat} {d : Data} {owners : List Address} :
    decodeOwners lib n d = .ok owners ↔
      32 * n ≤ d.length ∧ (Abi.wordsAt d 0 n).map (addressOfUInt lib) = owners := by
  induction n generalizing d owners with
  | zero => simp [decodeOwners, Abi.wordsAt]
  | succ n ih =>
      rw [decodeOwners, Abi.wordsAt_succ]
      simp only [bind_ok, removeFirst_ok, ih, decodeAddress_eq, pure, Except.pure, Except.ok.injEq,
        List.map_cons]
      constructor
      · intro h
        obtain ⟨_, ⟨hlen, rfl⟩, owners, ⟨hrest, howners⟩, rfl⟩ := h
        rw [List.length_drop] at hrest
        rw [Abi.wordsAt_drop] at howners
        exact ⟨by omega, by rw [← howners]⟩
      · intro h
        obtain ⟨hlen, howners⟩ := h
        refine ⟨_, ⟨by omega, rfl⟩, _, ⟨?_, rfl⟩, ?_⟩
        · rw [List.length_drop]
          omega
        · rw [Abi.wordsAt_drop]
          exact howners

/-- What has to be there for the arguments of a set-up call to be read. -/
structure SetupReadable (arguments : Data) : Prop where
  head : 7 * 32 ≤ arguments.length
  threshold : isInt (Abi.wordAt arguments 32) = true
  ownersOffset : isInt (arrayOffset arguments) = true
  ownersCount : isInt (arrayCount arguments) = true
  owners : itemsEnd arguments ≤ arguments.length
  dataOffset : isInt (Abi.wordAt arguments (3 * 32)) = true
  dataLength : isInt (Abi.wordAt arguments (Abi.wordAt arguments (3 * 32))) = true
  data : Abi.wordAt arguments (3 * 32) + 32 ≤ arguments.length

/-- The arguments as they are read. -/
def setupArguments (lib : ThirdParty) (arguments : Data) : SetupArguments where
  owners := (Abi.wordsAt arguments (itemsOffset arguments) (arrayCount arguments)).map
    (addressOfUInt lib)
  threshold := Abi.wordAt arguments 32
  recipient := addressOfUInt lib (Abi.wordAt arguments (2 * 32))
  data := Abi.bytesAt arguments (Abi.wordAt arguments (3 * 32))
  paymentToken := addressOfUInt lib (Abi.wordAt arguments (4 * 32))
  payment := Abi.wordAt arguments (5 * 32)
  paymentReceiver := addressOfUInt lib (Abi.wordAt arguments (6 * 32))

/-- A set-up call is read exactly if everything is where the offsets say. -/
theorem decodeSetup_call (lib : ThirdParty) (arguments : Data) (o : Option SetupArguments) :
    decodeSetup lib (method lib setupSignature ++ arguments) = .ok o ↔
      SetupReadable arguments ∧ some (setupArguments lib arguments) = o := by
  have hprefix : method lib setupSignature <+: method lib setupSignature ++ arguments :=
    List.prefix_append _ _
  unfold decodeSetup
  simp only [if_pos hprefix, bind_ok, removeFirst_ok, intOfUInt_ok, advanced_ok, decodeOwners_ok,
    pure, Except.pure, Except.ok.injEq, and_assoc, exists_and_left, exists_eq_left',
    List.drop_left, List.length_append, List.length_drop, List.drop_drop, decodeUInt_eq,
    decodeAddress_eq, Abi.wordAt_drop, Abi.wordsAt_drop, Nat.add_zero, Nat.reduceAdd]
  have hword : Abi.wordAt arguments (3 * 32) = Abi.wordAt arguments 96 := rfl
  constructor
  · intro h
    obtain ⟨-, -, hthreshold, -, -, -, -, -, hhead, -, hownersOffset, -, hownersCount, hcount, howners,
      -, hdataOffset, -, hdataLength, hdata, ho⟩ := h
    refine ⟨⟨by omega, hthreshold, hownersOffset, hownersCount, ?_, hdataOffset, hdataLength, ?_⟩, ho⟩
    · unfold itemsEnd itemsOffset arrayCount arrayOffset
      omega
    · omega
  · intro h
    obtain ⟨⟨hhead, hthreshold, hownersOffset, hownersCount, howners, hdataOffset, hdataLength, hdata⟩,
      ho⟩ := h
    unfold itemsEnd itemsOffset arrayCount arrayOffset at howners
    refine ⟨?_, ?_, hthreshold, ?_, ?_, ?_, ?_, ?_, ?_, ?_, hownersOffset, ?_, hownersCount, ?_, ?_, ?_,
      hdataOffset, ?_, hdataLength, ?_, ho⟩ <;> omega

/-- Other data is none of this decoder's business. -/
theorem decodeSetup_other {lib : ThirdParty} {d : Data} (h : ¬ method lib setupSignature <+: d) :
    decodeSetup lib d = .ok none := by
  simp only [decodeSetup, if_neg h]
  rfl

end GnosisSafeContractProxy

/-! ### Total and strict decoding -/

namespace EthereumContractProxy

/-- The data contains an array: at the offset that its first word gives, a count word `n`, and at
least `n` full words behind it. -/
def ContainsArray (d : Data) (n : Nat) : Prop := arrayCount d = n ∧ itemsEnd d ≤ d.length

/-- No decoder traps on `d`, and the array decoder reads the array that is there and no other. -/
structure DecodesStrictly (lib : ThirdParty) (d : Data) : Prop where
  arrayUInt : ∃ xs, decodeArrayUInt d = .ok xs
  arrayAddress : ∃ addresses, decodeArrayAddress lib d = .ok addresses
  bytes : ∃ b, decodeBytes d = .ok b
  setup : ∃ o, GnosisSafeContractProxy.decodeSetup lib d = .ok o
  owners : ∃ owners, SafeOwnerManagerContractProxy.getOwners lib d = .ok owners
  threshold : ∃ n, SafeOwnerManagerContractProxy.getThreshold d = .ok n
  array : ∀ xs, decodeArrayUInt d = .ok xs → xs ≠ [] → ∃ n, ContainsArray d n
  items : ∀ n, ContainsArray d n → decodeArrayUInt d = .ok (Abi.wordsAt d (itemsOffset d) n)

/-- The offset is past the end, or it is the offset of a full count word, whose items `Int` can
count the bytes of and which nothing follows, unless there are none. -/
def ArrayReadable (d : Data) : Prop :=
  d.length ≤ arrayOffset d ∨
    itemsOffset d ≤ d.length ∧ isInt (arrayCount d * 32) = true ∧
      (arrayCount d = 0 ∨ d.length ≤ itemsEnd d)

theorem decodeArrayUInt_isOk (d : Data) :
    (∃ xs, decodeArrayUInt d = .ok xs) ↔
      d.length ≤ arrayOffset d ∨ itemsEnd d < d.length ∨
        itemsOffset d ≤ d.length ∧ isInt (arrayCount d * 32) = true := by
  rw [decodeArrayUInt_eq]
  by_cases hout : d.length ≤ arrayOffset d ∨ itemsEnd d < d.length
  · rw [if_pos hout, ← or_assoc]
    exact iff_of_true ⟨_, rfl⟩ (.inl hout)
  · rw [if_neg hout, ← or_assoc, or_iff_right hout]
    by_cases hshort : d.length < itemsOffset d
    · rw [if_pos hshort]
      simp [Nat.not_le.mpr hshort]
    · rw [if_neg hshort]
      by_cases hint : isInt (arrayCount d * 32) = true
      · rw [if_pos hint]
        exact iff_of_true ⟨_, rfl⟩ ⟨Nat.not_lt.mp hshort, hint⟩
      · rw [if_neg hint]
        simp [hint]

/-- What is read is there. -/
theorem containsArray_of_decodeArrayUInt {d : Data} {xs : List Nat}
    (h : decodeArrayUInt d = .ok xs) (hne : xs ≠ []) : ContainsArray d (arrayCount d) := by
  rw [decodeArrayUInt_eq] at h
  split at h
  · exact absurd (Except.ok.inj h).symm hne
  · split at h
    · cases h
    · split at h
      · split at h
        · rename_i hend
          exact ⟨rfl, Nat.le_of_eq hend⟩
        · exact absurd (Except.ok.inj h).symm hne
      · cases h

/-- What is there is read, unless something follows it. -/
theorem decodeArrayUInt_of_containsArray {d : Data} {n : Nat} (h : ContainsArray d n) :
    decodeArrayUInt d = .ok (Abi.wordsAt d (itemsOffset d) n) ↔
      n = 0 ∨ d.length ≤ itemsEnd d ∧ isInt (n * 32) = true := by
  obtain ⟨rfl, hend⟩ := h
  have hin : ¬ d.length ≤ arrayOffset d := by
    unfold itemsEnd itemsOffset at hend
    omega
  have hshort : ¬ d.length < itemsOffset d := by
    unfold itemsEnd at hend
    omega
  have hnil : ([] : List Nat) = Abi.wordsAt d (itemsOffset d) (arrayCount d) ↔ arrayCount d = 0 := by
    rw [eq_comm, ← List.length_eq_zero_iff, Abi.length_wordsAt]
  rw [decodeArrayUInt_eq]
  by_cases hlong : itemsEnd d < d.length
  · rw [if_pos (.inr hlong), Except.ok.injEq, hnil]
    simp [Nat.not_le.mpr hlong]
  · rw [if_neg (not_or.mpr ⟨hin, hlong⟩), if_neg hshort]
    have heq : itemsEnd d = d.length := Nat.le_antisymm hend (Nat.not_lt.mp hlong)
    by_cases hint : isInt (arrayCount d * 32) = true
    · rw [if_pos hint, if_pos heq]
      exact iff_of_true rfl (.inr ⟨Nat.not_lt.mp hlong, hint⟩)
    · rw [if_neg hint]
      have hzero : arrayCount d ≠ 0 := by
        intro hzero
        rw [hzero] at hint
        exact hint rfl
      simp [hint, hzero]

theorem decodeSetup_isOk (lib : ThirdParty) (d : Data) :
    (∃ o, GnosisSafeContractProxy.decodeSetup lib d = .ok o) ↔
      (method lib GnosisSafeContractProxy.setupSignature <+: d →
        GnosisSafeContractProxy.SetupReadable (d.drop 4)) := by
  by_cases h : method lib GnosisSafeContractProxy.setupSignature <+: d
  · obtain ⟨arguments, rfl⟩ := h
    have hdrop : (method lib GnosisSafeContractProxy.setupSignature ++ arguments).drop 4 = arguments := by
      rw [← length_method lib GnosisSafeContractProxy.setupSignature, List.drop_left]
    simp only [GnosisSafeContractProxy.decodeSetup_call, exists_and_left, exists_eq', and_true, hdrop,
      List.prefix_append, forall_const]
  · exact iff_of_true ⟨none, GnosisSafeContractProxy.decodeSetup_other h⟩ fun h' => absurd h' h

/-- The decoders keep to the bytes of an answer exactly if the array in it is in order, its first
word fits `Int`, and a set-up call is all there. -/
theorem decodesStrictly_iff (lib : ThirdParty) (d : Data) :
    DecodesStrictly lib d ↔
      ArrayReadable d ∧ isInt (Abi.wordAt d 0) = true ∧
        (method lib GnosisSafeContractProxy.setupSignature <+: d →
          GnosisSafeContractProxy.SetupReadable (d.drop 4)) := by
  have hthreshold : (∃ n, SafeOwnerManagerContractProxy.getThreshold d = .ok n) ↔
      isInt (Abi.wordAt d 0) = true := by
    unfold SafeOwnerManagerContractProxy.getThreshold
    rw [decodeUInt_eq]
    split <;> simp_all
  constructor
  · intro h
    refine ⟨?_, hthreshold.mp h.threshold, (decodeSetup_isOk lib d).mp h.setup⟩
    rcases (decodeArrayUInt_isOk d).mp h.arrayUInt with hpast | hlong | ⟨hfull, hint⟩
    · exact .inl hpast
    · have hthere : ContainsArray d (arrayCount d) := ⟨rfl, hlong.le⟩
      have hzero : arrayCount d = 0 := by
        rcases (decodeArrayUInt_of_containsArray hthere).mp (h.items _ hthere) with hzero | ⟨hend, -⟩
        · exact hzero
        · omega
      refine .inr ⟨?_, by rw [hzero]; rfl, .inl hzero⟩
      unfold itemsEnd at hlong
      omega
    · by_cases hlong : itemsEnd d < d.length
      · have hthere : ContainsArray d (arrayCount d) := ⟨rfl, hlong.le⟩
        refine .inr ⟨hfull, hint, ?_⟩
        exact ((decodeArrayUInt_of_containsArray hthere).mp (h.items _ hthere)).imp id And.left
      · exact .inr ⟨hfull, hint, .inr (Nat.not_lt.mp hlong)⟩
  · intro h
    obtain ⟨harray, hword, hsetup⟩ := h
    have hok : ∃ xs, decodeArrayUInt d = .ok xs := by
      rw [decodeArrayUInt_isOk]
      rcases harray with hpast | ⟨hfull, hint, -⟩
      · exact .inl hpast
      · exact .inr (.inr ⟨hfull, hint⟩)
    exact {
      arrayUInt := hok
      arrayAddress := (decodeArrayAddress_isOk lib d).mpr hok
      bytes := ⟨_, by rw [decodeBytes_eq, if_pos hword]⟩
      setup := (decodeSetup_isOk lib d).mpr hsetup
      owners := (decodeArrayAddress_isOk lib d).mpr hok
      threshold := hthreshold.mpr hword
      array := fun xs hxs hne => ⟨_, containsArray_of_decodeArrayUInt hxs hne⟩
      items := by
        intro n hthere
        rw [decodeArrayUInt_of_containsArray hthere]
        obtain ⟨rfl, hend⟩ := hthere
        rcases harray with hpast | ⟨-, hint, hzero | hlong⟩
        · unfold itemsEnd itemsOffset at hend
          omega
        · exact .inl hzero
        · exact .inr ⟨hlong, hint⟩ }

/-- A node that says that there are more owners than `Int` can count stops the app, and one byte
behind the owners hides them. -/
theorem not_decodesStrictly_answers :
    ¬ DecodesStrictly reference (Abi.words [32, 2 ^ 255]) ∧
      ¬ DecodesStrictly reference (Abi.words [32, 1, 5] ++ [0]) := by
  have htrap : decodeArrayUInt (Abi.words [32, 2 ^ 255]) = .error .overflow := by decide +kernel
  have hhidden : decodeArrayUInt (Abi.words [32, 1, 5] ++ [0]) = .ok [] := by decide +kernel
  constructor
  · intro h
    obtain ⟨xs, hxs⟩ := h.arrayUInt
    rw [htrap] at hxs
    cases hxs
  · intro h
    have hitems := h.items 1 ⟨by decide +kernel, by decide +kernel⟩
    rw [hhidden] at hitems
    cases hitems

end EthereumContractProxy

end MultisigWallet
