import MultisigWallet.EncryptionSound
import MultisigWallet.TransactionSound
import MultisigWallet.WalletApplication

/-!
# MultisigWallet.ReceiveSound

What a push message does to the repositories. `handleSend_effect` says everything an accepted
or refused proposal leaves behind, and the conditions under which a handler returns at all
are collected in `Receivable`.
-/

namespace MultisigWallet

/-! ### Signatures -/

/-- Both components of the signature are numbers to EthereumKit. -/
def EthSignature.Readable (lib : ThirdParty) (signature : EthSignature) : Prop :=
  (lib.bInt signature.r).isSome = true ∧ (lib.bInt signature.s).isSome = true

variable {lib : ThirdParty}

theorem dataFromSignature_iff {signature : EthSignature} :
    (∃ d, EncryptionService.dataFromSignature lib signature = .ok d) ↔ signature.Readable lib := by
  unfold EncryptionService.dataFromSignature EthSignature.Readable
  cases lib.bInt signature.r <;> cases lib.bInt signature.s <;>
    simp [unwrap, bind, Except.bind, pure, Except.pure]

/-- The address of a recovered key passes the checks of `Address.init(_:)`. -/
theorem addressString_wellFormed (lib : ThirdParty) (publicKey : Data) :
    Address.WellFormed ⟨lib.addressString (lib.dataEthHex (lib.createAddress publicKey))⟩ := by
  obtain ⟨s, hs, hlen, hdigits⟩ := lib.createAddress_digits publicKey
  have hdata : (lib.dataEthHex (lib.createAddress publicKey)).length = 20 := by
    rw [hs, lib.dataEthHex_mark, lib.length_dataEthHex hdigits, hlen]
  obtain ⟨t, ht, hlow, htdigits⟩ := lib.addressString_digits _ hdata
  refine ⟨t, ht, ?_, htdigits⟩
  have hcount := congrArg List.length hlow
  rwa [lowercased, List.length_map, Bytes.length_toHex, hdata] at hcount

theorem signerAddress_ok {hash : Data} {signature : EthSignature} {o : Option Address} :
    EthereumApplicationService.address lib hash signature = .ok o ↔
      EncryptionService.addressOfSigner lib hash signature = .ok (o.map (·.value)) := by
  unfold EthereumApplicationService.address
  rw [bind_ok]
  constructor
  · rintro ⟨value, hvalue, h⟩
    cases value with
    | none =>
        obtain rfl := Except.ok.inj h
        exact hvalue
    | some value =>
        obtain ⟨a, ha, h⟩ := bind_ok.mp h
        obtain rfl := Except.ok.inj h
        unfold Address.ofString at ha
        obtain ⟨-, -, ha⟩ := bind_ok.mp ha
        obtain ⟨-, -, ha⟩ := bind_ok.mp ha
        obtain rfl := Except.ok.inj ha
        exact hvalue
  · intro h
    refine ⟨_, h, ?_⟩
    cases o with
    | none => rfl
    | some a =>
        -- the string comes from a recovered key
        have hwf : a.WellFormed := by
          unfold EncryptionService.addressOfSigner at h
          obtain ⟨data, -, h⟩ := bind_ok.mp h
          cases hkey : lib.publicKey data hash with
          | none =>
              rw [hkey] at h
              cases h
          | some key =>
              rw [hkey] at h
              have hvalue : lib.addressString (lib.dataEthHex (lib.createAddress key)) = a.value :=
                Option.some.inj (Except.ok.inj h)
              have := addressString_wellFormed lib key
              rwa [hvalue] at this
        show (do return some (← Address.ofString lib a.value)) = _
        rw [hwf.ofString_eq lib]
        rfl

theorem addressOfSigner_iff (hash : Data) {signature : EthSignature} :
    (∃ o, EncryptionService.addressOfSigner lib hash signature = .ok o) ↔
      signature.Readable lib := by
  rw [← dataFromSignature_iff]
  unfold EncryptionService.addressOfSigner
  constructor
  · rintro ⟨o, h⟩
    obtain ⟨d, hd, -⟩ := bind_ok.mp h
    exact ⟨d, hd⟩
  · rintro ⟨d, hd⟩
    cases hkey : lib.publicKey d hash with
    | none => exact ⟨none, bind_ok.mpr ⟨d, hd, by rw [hkey]; rfl⟩⟩
    | some key => exact ⟨some _, bind_ok.mpr ⟨d, hd, by rw [hkey]; rfl⟩⟩

namespace WalletApplicationService

/-- The check returns exactly when the signature can be read. -/
theorem extensionSigner_iff (r : Repositories) (hash : Data) {signature : EthSignature} :
    (∃ o, extensionSigner lib r hash signature = .ok o) ↔ signature.Readable lib := by
  rw [← addressOfSigner_iff hash]
  unfold extensionSigner
  constructor
  · rintro ⟨o, h⟩
    obtain ⟨sender, hsender, -⟩ := bind_ok.mp h
    exact ⟨_, signerAddress_ok.mp hsender⟩
  · rintro ⟨o, h⟩
    have hsender : EthereumApplicationService.address lib hash signature =
        .ok (o.map Address.mk) := by
      rw [signerAddress_ok, h]
      cases o <;> rfl
    rw [hsender]
    cases o with
    | none => exact ⟨none, rfl⟩
    | some value =>
        cases haddress : address r .browserExtension with
        | none => exact ⟨none, rfl⟩
        | some extensionAddress =>
            by_cases heq : lowercased value = lowercased extensionAddress.value
            · exact ⟨some extensionAddress, if_pos heq⟩
            · exact ⟨none, if_neg heq⟩

/-- A signature that passes is by the selected wallet's extension. -/
theorem extensionSigner_some {r : Repositories} {hash : Data} {signature : EthSignature}
    {a : Address} (h : extensionSigner lib r hash signature = .ok (some a)) :
    address r .browserExtension = some a ∧
      ∃ value, EncryptionService.addressOfSigner lib hash signature = .ok (some value) ∧
        lowercased value = lowercased a.value := by
  unfold extensionSigner at h
  obtain ⟨sender, hsender, h⟩ := bind_ok.mp h
  cases sender with
  | none => cases h
  | some sender =>
      cases haddress : address r .browserExtension with
      | none =>
          rw [haddress] at h
          cases h
      | some extensionAddress =>
          rw [haddress] at h
          simp only at h
          split at h
          · rename_i heq
            obtain rfl := Option.some.inj (Except.ok.inj h)
            exact ⟨rfl, _, signerAddress_ok.mp hsender, heq⟩
          · cases h

/-! ### Decoding a transfer -/

/-- The selector of `transfer(address,uint256)`. -/
def transferSelector : Data := [0xa9, 0x05, 0x9c, 0xbb]

/-- Data that begins like a transfer is decoded only if both arguments are there. -/
theorem decodedTransfer_iff {data : Data} :
    (∃ d, ERC20TokenContractProxy.decodedTransfer lib data = .ok d) ↔
      (transferSelector <+: data → 68 ≤ data.length) := by
  have hselector : EthereumContractProxy.method lib
      ERC20TokenContractProxy.transferMethodSignature = transferSelector := lib.selector_transfer
  rw [decodedTransfer_eq, hselector]
  by_cases hstart : transferSelector <+: data
  · by_cases hshort : data.length < 68
    · simp [hstart, hshort]
    · simp [hstart, hshort, Nat.not_lt.mp hshort]
  · simp [hstart]

/-! ### The proposed transaction -/

/-- The token a decoded transfer is shown in. -/
def transferToken (m : SendTransactionMessage) : Token := ⟨[], [], 18, m.toAddress, []⟩

/-- What `update` makes of a draft, its time stamp apart. -/
def described (tx : Transaction) (m : SendTransactionMessage) (decoded : Option (Address × Int)) :
    Transaction :=
  { tx with
    recipient := some (match decoded with
      | some (recipient, _) => recipient
      | none => m.toAddress)
    amount := some (match decoded with
      | some (_, amount) => ⟨amount, transferToken m⟩
      | none => .ether m.value)
    data := some m.data
    operation := some m.operation
    feeEstimate := some (estimation m)
    fee := some ⟨(m.txGas + m.dataGas) * m.gasPrice, (estimation m).gasPrice.token⟩
    nonce := some (stringOfInt m.nonce) }

theorem update_ok {tx t : Transaction} {m : SendTransactionMessage} {clock : Clock}
    (hdraft : tx.status = .draft) :
    update lib tx m clock = .ok t ↔ isInt (m.txGas + m.dataGas) = true ∧
      ∃ decoded, ERC20TokenContractProxy.decodedTransfer lib m.data = .ok decoded ∧
        (described tx m decoded).timestampUpdated (clock (if decoded.isSome then 8 else 6)) = t := by
  unfold update
  simp only [Transaction.change_draft, hdraft, Transaction.assign, Transaction.timestampUpdated,
    bind, Except.bind, fee, addInt, estimation]
  by_cases hgas : isInt (m.txGas + m.dataGas) = true
  · simp only [hgas, if_true, true_and, pure, Except.pure]
    cases hdecoded : ERC20TokenContractProxy.decodedTransfer lib m.data with
    | error e => simp
    | ok decoded =>
        cases decoded with
        | none => simp [described, estimation, hdraft]
        | some d =>
            obtain ⟨recipient, amount⟩ := d
            simp [hdraft, described, estimation, transferToken]
  · simp [hgas]

theorem isERC20Transfer_described (tx : Transaction) (m : SendTransactionMessage)
    (d : Address × Int) :
    (described tx m (some d)).isERC20Transfer = decide (m.toAddress.value ≠ Token.Ether.id) := rfl

/-- Where a described transaction goes: a decoded transfer goes to the token, unless the
token is the Ether pseudo-token. -/
theorem ethTo_described (tx : Transaction) (m : SendTransactionMessage)
    (decoded : Option (Address × Int)) :
    (described tx m decoded).ethTo = match decoded with
      | none => m.toAddress
      | some (recipient, _) =>
          if m.toAddress.value = Token.Ether.id then recipient else m.toAddress := by
  cases decoded with
  | none => simp [described, Transaction.ethTo, Transaction.isERC20Transfer, TokenAmount.ether]
  | some d =>
      rw [Transaction.ethTo, isERC20Transfer_described]
      by_cases h : m.toAddress.value = Token.Ether.id <;> simp [h, described, transferToken]

theorem ethValue_described (tx : Transaction) (m : SendTransactionMessage)
    (decoded : Option (Address × Int)) :
    (described tx m decoded).ethValue = match decoded with
      | none => m.value
      | some (_, amount) => if m.toAddress.value = Token.Ether.id then amount else 0 := by
  cases decoded with
  | none => simp [described, Transaction.ethValue, Transaction.isERC20Transfer, TokenAmount.ether]
  | some d =>
      rw [Transaction.ethValue, isERC20Transfer_described]
      by_cases h : m.toAddress.value = Token.Ether.id <;> simp [h, described]

/-! ### Hashing -/

/-- The recipient of a decoded transfer is a proper address. -/
theorem wellFormed_decodedTransfer {data : Data} {recipient : Address} {amount : Int}
    (h : ERC20TokenContractProxy.decodedTransfer lib data = .ok (some (recipient, amount))) :
    recipient.WellFormed := by
  rw [decodedTransfer_eq] at h
  split at h
  · split at h
    · cases h
    · split at h
      · obtain ⟨rfl, -⟩ := Prod.mk.inj (Option.some.inj (Except.ok.inj h))
        exact EthereumContractProxy.wellFormed_addressOfUInt lib _
      · cases h
  · cases h

theorem dataOfAddress_ok {a : Address} (h : a.Hexadecimal lib) :
    ∃ d, EncryptionService.dataOfAddress lib a = .ok d := by
  obtain ⟨n, hn⟩ := h
  unfold EncryptionService.dataOfAddress
  rw [hn]
  exact ⟨_, rfl⟩

/-- A described transaction can be hashed. -/
theorem hash_described (metadata : SafeContractMetadata) (wallets : List Wallet)
    (tx : Transaction) {m : SendTransactionMessage} {decoded : Option (Address × Int)}
    (hsender : tx.sender = some m.safe)
    (hm : m.safe.Hexadecimal lib ∧ m.toAddress.Hexadecimal lib ∧ m.gasToken.Hexadecimal lib)
    (hdecoded : ERC20TokenContractProxy.decodedTransfer lib m.data = .ok decoded) :
    ∃ h, EncryptionService.hash lib metadata wallets (described tx m decoded) = .ok h := by
  obtain ⟨hsafe, hto, htoken⟩ := hm
  have hethTo : (described tx m decoded).ethTo.Hexadecimal lib := by
    rw [ethTo_described]
    cases decoded with
    | none => exact hto
    | some d =>
        obtain ⟨recipient, amount⟩ := d
        show Address.Hexadecimal lib (if _ then _ else _)
        split
        · exact (wellFormed_decodedTransfer hdecoded).hexadecimal lib
        · exact hto
  obtain ⟨safeData, hsafeData⟩ := dataOfAddress_ok hsafe
  obtain ⟨toData, htoData⟩ := dataOfAddress_ok hethTo
  obtain ⟨tokenData, htokenData⟩ := dataOfAddress_ok htoken
  have hdomain : ∃ d, EncryptionService.domainData lib metadata wallets (described tx m decoded) =
      .ok d := by
    refine ⟨_, bind_ok.mpr ⟨m.safe, ?_, bind_ok.mpr ⟨safeData, hsafeData, rfl⟩⟩⟩
    exact unwrap_ok.mpr hsender
  have hvalue : ∃ d, EncryptionService.valueData lib metadata wallets (described tx m decoded) =
      .ok d := by
    refine ⟨_, bind_ok.mpr ⟨toData, htoData, bind_ok.mpr ⟨m.operation, rfl,
      bind_ok.mpr ⟨estimation m, rfl, bind_ok.mpr ⟨tokenData, htokenData,
      bind_ok.mpr ⟨stringOfInt m.nonce, rfl, bind_ok.mpr ⟨m.nonce, ?_, rfl⟩⟩⟩⟩⟩⟩⟩
    exact unwrap_ok.mpr (bigInt_stringOfInt lib m.nonce)
  obtain ⟨domain, hdomain⟩ := hdomain
  obtain ⟨value, hvalue⟩ := hvalue
  exact ⟨_, bind_ok.mpr ⟨_, bind_ok.mpr ⟨domain, hdomain, bind_ok.mpr ⟨value, hvalue, rfl⟩⟩, rfl⟩⟩

/-! ### Everything a proposal can do -/

/-- The draft `newDraftTransaction(in:)` saves. -/
def newDraft (w : Wallet) (sender : Address) (id : TransactionID) (clock : Clock) : Transaction :=
  ((Transaction.new id .transfer w.id ⟨Token.Ether.id, w.id⟩ (clock 0) (clock 1)).assign
    (.sender (some sender))).timestampUpdated (clock 2)

theorem newDraftTransaction_eq (r : Repositories) {w : Wallet} {sender : Address}
    (h : w.address = some sender) (id : TransactionID) (clock : Clock) :
    newDraftTransaction r w id clock = .ok (r.save (newDraft w sender id clock)) := by
  unfold newDraftTransaction
  rw [h, unwrap_some]
  rfl

/-- The transaction that `m` describes in the wallet `w`, as far as it is hashed. -/
def proposed (m : SendTransactionMessage) (w : Wallet) (decoded : Option (Address × Int)) :
    Transaction :=
  described { id := [], type := .transfer, walletID := w.id, accountID := ⟨Token.Ether.id, w.id⟩,
              sender := some m.safe } m decoded

/-- The transaction that is stored when `m` is accepted. -/
def accepted (m : SendTransactionMessage) (w : Wallet) (decoded : Option (Address × Int))
    (signature : Signature) (id : TransactionID) (clock : Clock) : Transaction :=
  { described (newDraft w m.safe id clock) m decoded with
    hash := some m.hash
    status := .signing
    signatures := [signature]
    updatedDate := some (clock 15) }

/-- A draft made from `m` in `w` is hashed without a trap, to `hash`. -/
structure Proposes (lib : ThirdParty) (metadata : SafeContractMetadata) (r : Repositories)
    (m : SendTransactionMessage) (w : Wallet) (decoded : Option (Address × Int)) (hash : Data) :
    Prop where
  gas_isInt : isInt (m.txGas + m.dataGas) = true
  decodes : ERC20TokenContractProxy.decodedTransfer lib m.data = .ok decoded
  hashes : EncryptionService.hash lib metadata r.wallets (proposed m w decoded) = .ok hash

/-- Every way the handler of a proposal can return. -/
inductive SendEffect (lib : ThirdParty) (metadata : SafeContractMetadata) (r : Repositories)
    (m : SendTransactionMessage) (id : TransactionID) (clock : Clock) :
    Option TransactionID × Repositories → Prop
  | known (tx : Transaction) (h : r.findHash m.hash = some tx) :
      SendEffect lib metadata r m id clock (if tx.status = .signing then some tx.id else none, r)
  | noWallet (h : r.findHash m.hash = none) (hw : r.walletAt m.safe = none) :
      SendEffect lib metadata r m id clock (none, r)
  | otherHash (w : Wallet) (decoded : Option (Address × Int)) (hash : Data)
      (h : r.findHash m.hash = none) (hw : r.walletAt m.safe = some w)
      (hp : Proposes lib metadata r m w decoded hash) (hne : hash ≠ m.hash) :
      SendEffect lib metadata r m id clock (none, r.remove (newDraft w m.safe id clock))
  | otherSigner (w : Wallet) (decoded : Option (Address × Int))
      (h : r.findHash m.hash = none) (hw : r.walletAt m.safe = some w)
      (hp : Proposes lib metadata r m w decoded m.hash)
      (hs : extensionSigner lib r m.hash m.signature = .ok none) :
      SendEffect lib metadata r m id clock (none, r.remove (newDraft w m.safe id clock))
  | accepted (w : Wallet) (decoded : Option (Address × Int)) (signature : Signature)
      (h : r.findHash m.hash = none) (hw : r.walletAt m.safe = some w)
      (hp : Proposes lib metadata r m w decoded m.hash)
      (hs : extensionSigner lib r m.hash m.signature = .ok (some signature.address))
      (hvalid : Address.ofString lib signature.address.value = .ok signature.address)
      (hdata : EncryptionService.dataFromSignature lib m.signature = .ok signature.data) :
      SendEffect lib metadata r m id clock
        (some id, r.save (WalletApplicationService.accepted m w decoded signature id clock))

theorem address_of_walletAt {r : Repositories} {a : Address} {w : Wallet}
    (h : r.walletAt a = some w) : w.address = some a := by
  simpa using List.find?_some h

section

variable {metadata : SafeContractMetadata} {r : Repositories} {m : SendTransactionMessage}
  {w : Wallet} {id : TransactionID} {clock : Clock} {out : Option TransactionID × Repositories}

/-- What the handler does once the draft is described and hashed. -/
def judge (lib : ThirdParty) (r : Repositories) (m : SendTransactionMessage) (w : Wallet)
    (decoded : Option (Address × Int)) (hash : Data) (id : TransactionID) (clock : Clock) :
    Except Trap (Option TransactionID × Repositories) :=
  if hash = m.hash then do
    match ← extensionSigner lib r m.hash m.signature with
    | none => return (none, r.remove (newDraft w m.safe id clock))
    | some extensionAddress =>
        let data ← EncryptionService.dataFromSignature lib m.signature
        let address ← Address.ofString lib extensionAddress.value
        return (some id, r.save (accepted m w decoded ⟨address, data⟩ id clock))
  else return (none, r.remove (newDraft w m.safe id clock))

theorem judge_eq (decoded : Option (Address × Int)) (hash : Data) (now : Date) :
    (if hash = m.hash then do
      let tx ← ((described (newDraft w m.safe id clock) m decoded).timestampUpdated now).change
        (.hash (some hash)) (clock 12)
      match ← extensionSigner lib (r.save (newDraft w m.safe id clock)) m.hash m.signature with
      | none => return (none, (r.save (newDraft w m.safe id clock)).remove tx)
      | some extensionAddress =>
          let tx ← tx.proceed (clock 13) (clock 14)
          let data ← EncryptionService.dataFromSignature lib m.signature
          let address ← Address.ofString lib extensionAddress.value
          let tx ← tx.addSignature ⟨address, data⟩ (clock 15)
          return (some id, (r.save (newDraft w m.safe id clock)).save tx)
    else return (none, (r.save (newDraft w m.safe id clock)).remove
      ((described (newDraft w m.safe id clock) m decoded).timestampUpdated now))) =
    judge lib r m w decoded hash id clock := by
  unfold judge
  have hselected : extensionSigner lib (r.save (newDraft w m.safe id clock)) m.hash m.signature =
      extensionSigner lib r m.hash m.signature := rfl
  split
  · rename_i heq
    subst heq
    rw [Transaction.change_draft rfl, hselected]
    cases extensionSigner lib r m.hash m.signature with
    | error e => rfl
    | ok o =>
        cases o with
        | none => exact congrArg (fun r => Except.ok (none, r)) (Repositories.remove_save rfl)
        | some a =>
            show (EncryptionService.dataFromSignature lib m.signature >>= fun data =>
              Address.ofString lib a.value >>= fun address =>
                Except.ok (some id, (r.save (newDraft w m.safe id clock)).save
                  (accepted m w decoded ⟨address, data⟩ id clock))) = _
            have hsave : ∀ signature, (r.save (newDraft w m.safe id clock)).save
                (accepted m w decoded signature id clock) =
                  r.save (accepted m w decoded signature id clock) :=
              fun _ => Repositories.save_save rfl
            simp only [hsave]
            rfl
  · exact congrArg (fun r => Except.ok (none, r)) (Repositories.remove_save rfl)

/-- With a wallet at the address and no transaction of that hash, the handler describes the
draft, hashes it and judges the hash and the signature. -/
theorem handleSend_new (hfind : r.findHash m.hash = none) (hw : r.walletAt m.safe = some w) :
    handleSend lib metadata r m id clock = .ok out ↔
      ∃ decoded hash, Proposes lib metadata r m w decoded hash ∧
        judge lib r m w decoded hash id clock = .ok out := by
  have hfound : (r.save (newDraft w m.safe id clock)).find id =
      some (newDraft w m.safe id clock) := Repositories.find_save r (newDraft w m.safe id clock)
  unfold handleSend
  simp only [hfind, hw, newDraftTransaction_eq r (address_of_walletAt hw) id clock]
  show (unwrap _ ((r.save (newDraft w m.safe id clock)).find id) >>= _) = _ ↔ _
  rw [hfound, unwrap_some]
  show (update lib (newDraft w m.safe id clock) m _ >>= _) = _ ↔ _
  simp only [bind_ok]
  constructor
  · rintro ⟨t, ht, hash, hhash, h⟩
    obtain ⟨hgas, decoded, hdecoded, rfl⟩ := (update_ok rfl).mp ht
    exact ⟨decoded, hash, ⟨hgas, hdecoded, hhash⟩, (judge_eq decoded hash _).symm.trans h⟩
  · rintro ⟨decoded, hash, hp, h⟩
    exact ⟨_, (update_ok rfl).mpr ⟨hp.gas_isInt, decoded, hp.decodes, rfl⟩, hash, hp.hashes,
      (judge_eq decoded hash _).trans h⟩

theorem handleSend_effect :
    handleSend lib metadata r m id clock = .ok out ↔ SendEffect lib metadata r m id clock out := by
  constructor
  · intro h
    cases hfind : r.findHash m.hash with
    | some tx =>
        simp only [handleSend, hfind] at h
        obtain rfl := Except.ok.inj h
        exact .known tx hfind
    | none =>
        cases hw : r.walletAt m.safe with
        | none =>
            simp only [handleSend, hfind, hw] at h
            obtain rfl := Except.ok.inj h
            exact .noWallet hfind hw
        | some w =>
            obtain ⟨decoded, hash, hp, h⟩ := (handleSend_new hfind hw).mp h
            unfold judge at h
            split at h
            · rename_i heq
              subst heq
              obtain ⟨o, ho, h⟩ := bind_ok.mp h
              cases o with
              | none =>
                  obtain rfl := Except.ok.inj h
                  exact .otherSigner w decoded hfind hw hp ho
              | some a =>
                  obtain ⟨data, hdata, h⟩ := bind_ok.mp h
                  obtain ⟨address, haddress, h⟩ := bind_ok.mp h
                  obtain rfl := Except.ok.inj h
                  obtain rfl : address = a := Address.ofString_ok haddress
                  exact .accepted w decoded ⟨address, data⟩ hfind hw hp ho haddress hdata
            · rename_i hne
              obtain rfl := Except.ok.inj h
              exact .otherHash w decoded hash hfind hw hp hne
  · intro h
    cases h with
    | known tx hfind =>
        simp only [handleSend, hfind]
        rfl
    | noWallet hfind hw =>
        simp only [handleSend, hfind, hw]
        rfl
    | otherHash w decoded hash hfind hw hp hne =>
        exact (handleSend_new hfind hw).mpr ⟨decoded, hash, hp, if_neg hne⟩
    | otherSigner w decoded hfind hw hp hs =>
        refine (handleSend_new hfind hw).mpr ⟨decoded, m.hash, hp, ?_⟩
        rw [judge, if_pos rfl, hs]
        rfl
    | accepted w decoded signature hfind hw hp hs hvalid hdata =>
        refine (handleSend_new hfind hw).mpr ⟨decoded, m.hash, hp, ?_⟩
        rw [judge, if_pos rfl, hs, hdata]
        show (Address.ofString lib signature.address.value >>= _) = _
        rw [hvalid]
        rfl

end

/-! ### The stored transaction is the proposed one -/

/-- `t` is the transaction that `m` describes in `w`, and its only signature is by the
browser extension of `w`. -/
structure Represents (lib : ThirdParty) (m : SendTransactionMessage) (w : Wallet)
    (t : Transaction) : Prop where
  status : t.status = .signing
  walletID : t.walletID = w.id
  sender : t.sender = some m.safe
  ethTo : t.ethTo = m.toAddress
  ethValue : t.ethValue = m.value
  data : t.data = some m.data
  operation : t.operation = some m.operation
  estimate : ∃ e, t.feeEstimate = some e ∧ e.gas = m.txGas ∧ e.dataGas = m.dataGas ∧
    e.gasPrice.amount = m.gasPrice ∧ e.gasPrice.token.address = m.gasToken
  nonce : t.nonce = some (stringOfInt m.nonce)
  hash : t.hash = some m.hash
  signature : ∃ signature owner signer, t.signatures = [signature] ∧
    EncryptionService.dataFromSignature lib m.signature = .ok signature.data ∧
    w.owner .browserExtension = some owner ∧
    EncryptionService.addressOfSigner lib m.hash m.signature = .ok (some signer) ∧
    lowercased signer = lowercased owner.address.value ∧
    lowercased signature.address.value = lowercased owner.address.value

/-- If the data reads as a transfer, what it is shown as is what the message says: a
transfer of a token carries no Ether, and at the address of the Ether pseudo-token the
decoded recipient and amount are the message's own. -/
def TransferAgrees (lib : ThirdParty) (m : SendTransactionMessage) : Prop :=
  ∀ recipient amount,
    ERC20TokenContractProxy.decodedTransfer lib m.data = .ok (some (recipient, amount)) →
      if m.toAddress.value = Token.Ether.id then recipient = m.toAddress ∧ amount = m.value
      else m.value = 0

/-- `w` has the selected wallet's browser extension. -/
def SameExtension (r : Repositories) (w : Wallet) : Prop :=
  ∃ owner a, w.owner .browserExtension = some owner ∧ address r .browserExtension = some a ∧
    lowercased owner.address.value = lowercased a.value

section

variable {metadata : SafeContractMetadata} {r : Repositories} {m : SendTransactionMessage}
  {w : Wallet} {id : TransactionID} {clock : Clock} {decoded : Option (Address × Int)}
  {signature : Signature}

variable (w id clock signature) in
/-- Recipient and value of the accepted transaction are the message's exactly when the
transfer agrees. -/
theorem transferAgrees_iff
    (hdecoded : ERC20TokenContractProxy.decodedTransfer lib m.data = .ok decoded) :
    (accepted m w decoded signature id clock).ethTo = m.toAddress ∧
      (accepted m w decoded signature id clock).ethValue = m.value ↔ TransferAgrees lib m := by
  have hto : (accepted m w decoded signature id clock).ethTo =
      (described (newDraft w m.safe id clock) m decoded).ethTo := rfl
  have hvalue : (accepted m w decoded signature id clock).ethValue =
      (described (newDraft w m.safe id clock) m decoded).ethValue := rfl
  rw [hto, hvalue, ethTo_described, ethValue_described]
  unfold TransferAgrees
  rw [hdecoded]
  cases decoded with
  | none => simp
  | some d =>
      obtain ⟨recipient, amount⟩ := d
      have hshown : (∀ recipient' amount',
          (Except.ok (some (recipient, amount)) : Except Trap _) =
            .ok (some (recipient', amount')) →
          if m.toAddress.value = Token.Ether.id then
            recipient' = m.toAddress ∧ amount' = m.value else m.value = 0) ↔
          if m.toAddress.value = Token.Ether.id then
            recipient = m.toAddress ∧ amount = m.value else m.value = 0 := by
        refine ⟨fun h => h _ _ rfl, fun h recipient' amount' heq => ?_⟩
        obtain ⟨rfl, rfl⟩ := Prod.mk.inj (Option.some.inj (Except.ok.inj heq))
        exact h
      rw [hshown]
      by_cases hether : m.toAddress.value = Token.Ether.id
      · simp only [if_pos hether]
      · simp only [if_neg hether, true_and, eq_comm]

variable (w id clock) in
theorem represents_accepted
    (hdecoded : ERC20TokenContractProxy.decodedTransfer lib m.data = .ok decoded)
    (hs : extensionSigner lib r m.hash m.signature = .ok (some signature.address))
    (hdata : EncryptionService.dataFromSignature lib m.signature = .ok signature.data) :
    Represents lib m w (accepted m w decoded signature id clock) ↔
      TransferAgrees lib m ∧ SameExtension r w := by
  obtain ⟨haddress, signer, hsigner, heq⟩ := extensionSigner_some hs
  rw [← transferAgrees_iff w id clock signature hdecoded]
  constructor
  · intro h
    refine ⟨⟨h.ethTo, h.ethValue⟩, ?_⟩
    obtain ⟨σ, owner, signer, hσ, -, howner, -, -, hsame⟩ := h.signature
    obtain rfl : signature = σ := List.cons.inj hσ |>.1
    exact ⟨owner, _, howner, haddress, hsame.symm⟩
  · rintro ⟨⟨hto, hvalue⟩, owner, a, howner, ha, hsame⟩
    obtain rfl : signature.address = a := Option.some.inj (haddress.symm.trans ha)
    exact {
      status := rfl
      walletID := rfl
      sender := rfl
      ethTo := hto
      ethValue := hvalue
      data := rfl
      operation := rfl
      estimate := ⟨estimation m, rfl, rfl, rfl, rfl, rfl⟩
      nonce := rfl
      hash := rfl
      signature := ⟨signature, owner, signer, rfl, hdata, howner, hsigner, heq.trans hsame.symm,
        hsame.symm⟩ }

/-- A proposal that creates a transaction is accepted. -/
theorem handleSend_some {id' : TransactionID} {r' : Repositories}
    (h : handleSend lib metadata r m id clock = .ok (some id', r'))
    (hnew : r.findHash m.hash = none) :
    id' = id ∧ ∃ w decoded signature, r.walletAt m.safe = some w ∧
      Proposes lib metadata r m w decoded m.hash ∧
      extensionSigner lib r m.hash m.signature = .ok (some signature.address) ∧
      EncryptionService.dataFromSignature lib m.signature = .ok signature.data ∧
      r' = r.save (accepted m w decoded signature id clock) := by
  generalize hout : (some id', r') = out at h
  cases handleSend_effect.mp h with
  | known tx hfind =>
      rw [hnew] at hfind
      cases hfind
  | noWallet _ _ => cases hout
  | otherHash _ _ _ _ _ _ _ => cases hout
  | otherSigner _ _ _ _ _ _ => cases hout
  | accepted w decoded signature _ hw hp hs _ hdata =>
      obtain ⟨hid, hr⟩ := Prod.mk.inj hout
      exact ⟨Option.some.inj hid, w, decoded, signature, hw, hp, hs, hdata, hr⟩

/-! ### A transfer that also carries Ether -/

/-- A wallet whose only owner is a browser extension. -/
def pairedWallet : Wallet where
  id := ['w']
  state := .readyToUse
  owners := ⟨[⟨⟨"0x1fF0723b3AFC12aFa7Fa294d64F7D5F1B606230A".toList⟩, .browserExtension⟩],
    by decide⟩
  address := some EncryptionService.confirmationSender

def pairedRepositories : Repositories where
  transactions := []
  wallets := [pairedWallet]
  selectedWallet := some ['w']
  tokens := []
  externallyOwnedAccounts := []

/-- A proposal to transfer 100 units of a token. The hash and the signature are those of
the transaction with value zero, whatever `value` says. -/
def transferProposal (value : Int) : SendTransactionMessage where
  hash := Bytes.ofNat 32 0x3ae0238b61c86bdd0a2c0b81e1e4a34d93be01431cd7a3cee33d9869338c1db0
  safe := EncryptionService.confirmationSender
  toAddress := EncryptionService.confirmationRecipient
  value := value
  data := transferSelector ++ Abi.word 0x5b67e9d0a1f3c2b4d6e8fa0b1c2d3e4f50617283 ++ Abi.word 100
  operation := .call
  txGas := 21500
  dataGas := 24600
  operationalGas := 48200
  gasPrice := 10000
  gasToken := Address.zero
  nonce := 1
  signature := {
    r := Nat.toDigits 10
      108607064596551879580190606910245687803607295064141551927605737287325610911759
    s := Nat.toDigits 10
      15375811718067732053896892127654050180516234852587257834555443436228311294849
    v := 28 }

/-- What the handler stores for the proposal. -/
def handledTransfer (value : Int) : Except Trap (Option TransactionID × Repositories) :=
  handleSend reference EncryptionService.noMetadata pairedRepositories (transferProposal value)
    ['t'] fun _ => 0

end

/-! ### Everything a decision can do -/

section

variable {r : Repositories} {m : TransactionDecisionMessage} {clock : Clock}
  {out : Option TransactionID × Repositories}

theorem transaction_some {hash : Data} {tx : Transaction}
    (h : transaction lib r m hash = .ok (some tx)) :
    r.findHashStatus m.hash .signing = some tx ∧
      ∃ a, extensionSigner lib r hash m.signature = .ok (some a) := by
  unfold transaction at h
  cases hfind : r.findHashStatus m.hash .signing with
  | none =>
      rw [hfind] at h
      cases h
  | some t =>
      rw [hfind] at h
      obtain ⟨o, ho, h⟩ := bind_ok.mp h
      cases o with
      | none => cases h
      | some a =>
          obtain rfl := Option.some.inj (Except.ok.inj h)
          exact ⟨rfl, a, ho⟩

/-- Looking for the decided transaction traps exactly on a signature that cannot be read. -/
theorem transaction_iff (hash : Data) :
    (∃ o, transaction lib r m hash = .ok o) ↔
      ((r.findHashStatus m.hash .signing).isSome → m.signature.Readable lib) := by
  unfold transaction
  cases r.findHashStatus m.hash .signing with
  | none => exact ⟨fun _ h => (by simp at h), fun _ => ⟨none, rfl⟩⟩
  | some tx =>
      rw [← extensionSigner_iff r hash]
      constructor
      · rintro ⟨o, h⟩ -
        obtain ⟨o', ho', -⟩ := bind_ok.mp h
        exact ⟨o', ho'⟩
      · intro h
        obtain ⟨o, ho⟩ := h rfl
        cases o with
        | none => exact ⟨none, bind_ok.mpr ⟨none, ho, rfl⟩⟩
        | some a => exact ⟨some tx, bind_ok.mpr ⟨some a, ho, rfl⟩⟩

theorem status_of_findHashStatus {hash : Data} {status : TransactionStatus} {tx : Transaction}
    (h : r.findHashStatus hash status = some tx) :
    tx ∈ r.transactions ∧ tx.hash = some hash ∧ tx.status = status := by
  unfold Repositories.findHashStatus at h
  have hprop := List.find?_some h
  exact ⟨List.mem_of_find?_eq_some h, by simpa using hprop⟩

/-- Every way the handler of a confirmation can return. -/
theorem handleConfirmed_ok (h : handleConfirmed lib r m clock = .ok out) :
    out = (none, r) ∨ ∃ tx tx' a data, r.findHashStatus m.hash .signing = some tx ∧
      address r .browserExtension = some a ∧
      EncryptionService.dataFromSignature lib m.signature = .ok data ∧
      tx.addSignature ⟨a, data⟩ (clock 0) = .ok tx' ∧ out = (some tx'.id, r.save tx') := by
  unfold handleConfirmed at h
  obtain ⟨o, ho, h⟩ := bind_ok.mp h
  cases o with
  | none => exact .inl (Except.ok.inj h).symm
  | some tx =>
      obtain ⟨a, ha, h⟩ := bind_ok.mp h
      obtain ⟨data, hdata, h⟩ := bind_ok.mp h
      obtain ⟨tx', htx', h⟩ := bind_ok.mp h
      exact .inr ⟨tx, tx', a, data, (transaction_some ho).1, unwrap_ok.mp ha, hdata, htx',
        (Except.ok.inj h).symm⟩

/-- Every way the handler of a rejection can return. -/
theorem handleRejected_ok (h : handleRejected lib r m clock = .ok out) :
    out = (none, r) ∨ ∃ tx tx', r.findHashStatus m.hash .signing = some tx ∧
      tx.reject (clock 0) (clock 1) = .ok tx' ∧ out = (some tx'.id, r.save tx') := by
  unfold handleRejected at h
  obtain ⟨o, ho, h⟩ := bind_ok.mp h
  cases o with
  | none => exact .inl (Except.ok.inj h).symm
  | some tx =>
      obtain ⟨tx', htx', h⟩ := bind_ok.mp h
      exact .inr ⟨tx, tx', (transaction_some ho).1, htx', (Except.ok.inj h).symm⟩

/-- A confirmation is handled exactly when no signature that is looked at is unreadable. -/
theorem handleConfirmed_iff :
    (∃ out, handleConfirmed lib r m clock = .ok out) ↔
      ((r.findHashStatus m.hash .signing).isSome → m.signature.Readable lib) := by
  rw [← transaction_iff m.hash]
  unfold handleConfirmed
  constructor
  · rintro ⟨out, h⟩
    obtain ⟨o, ho, -⟩ := bind_ok.mp h
    exact ⟨o, ho⟩
  · rintro ⟨o, ho⟩
    cases o with
    | none => exact ⟨_, bind_ok.mpr ⟨none, ho, rfl⟩⟩
    | some tx =>
        obtain ⟨hfind, a, ha⟩ := transaction_some ho
        obtain ⟨data, hdata⟩ := dataFromSignature_iff.mpr ((extensionSigner_iff _ _).mp ⟨_, ha⟩)
        have hstatus : tx.status = .signing := (status_of_findHashStatus hfind).2.2
        exact ⟨_, bind_ok.mpr ⟨some tx, ho, bind_ok.mpr ⟨a, unwrap_ok.mpr (extensionSigner_some ha).1,
          bind_ok.mpr ⟨data, hdata, bind_ok.mpr
            ⟨_, Transaction.addSignature_ok.mpr ⟨.inr hstatus, rfl⟩, rfl⟩⟩⟩⟩⟩

theorem handleRejected_iff :
    (∃ out, handleRejected lib r m clock = .ok out) ↔
      ((r.findHashStatus m.hash .signing).isSome → m.signature.Readable lib) := by
  rw [← transaction_iff (lib.hashSHA3_256 (rejectionPayload m.hash))]
  unfold handleRejected
  constructor
  · rintro ⟨out, h⟩
    obtain ⟨o, ho, -⟩ := bind_ok.mp h
    exact ⟨o, ho⟩
  · rintro ⟨o, ho⟩
    cases o with
    | none => exact ⟨_, bind_ok.mpr ⟨none, ho, rfl⟩⟩
    | some tx =>
        have hstatus : tx.status = .signing :=
          (status_of_findHashStatus (transaction_some ho).1).2.2
        exact ⟨_, bind_ok.mpr ⟨some tx, ho,
          bind_ok.mpr ⟨_, Transaction.reject_signing hstatus _ _, rfl⟩⟩⟩

end

/-! ### When a message can be received -/

/-- The owners' addresses pass the checks their initialiser made. -/
def OwnersValid (lib : ThirdParty) (r : Repositories) : Prop :=
  ∀ w ∈ r.wallets, ∀ o ∈ w.owners.storage, Address.ofString lib o.address.value = .ok o.address

/-- No partial function on the way of the message is called outside its domain:

* a signature is looked at only if it can be read. For a decision that is when a signing
  transaction has the hash, for a proposal when its own hash is the one it claims;
* the gas of a new proposal does not overflow;
* data that begins like a transfer has both arguments. -/
def Receivable (lib : ThirdParty) (metadata : SafeContractMetadata) (r : Repositories) :
    Message → Prop
  | .transactionConfirmed m =>
      (r.findHashStatus m.hash .signing).isSome → m.signature.Readable lib
  | .transactionRejected m =>
      (r.findHashStatus m.hash .signing).isSome → m.signature.Readable lib
  | .sendTransaction m =>
      r.findHash m.hash = none → ∀ w, r.walletAt m.safe = some w →
        isInt (m.txGas + m.dataGas) = true ∧
        (transferSelector <+: m.data → 68 ≤ m.data.length) ∧
        ∀ decoded, Proposes lib metadata r m w decoded m.hash → m.signature.Readable lib

section

variable {metadata : SafeContractMetadata} {r : Repositories} {id : TransactionID} {clock : Clock}

theorem ofString_extension (hvalid : OwnersValid lib r) {a : Address}
    (h : address r .browserExtension = some a) : Address.ofString lib a.value = .ok a := by
  obtain ⟨w, hw, h⟩ := Option.bind_eq_some_iff.mp h
  obtain ⟨o, ho, h⟩ := Option.bind_eq_some_iff.mp h
  obtain rfl := Option.some.inj h
  obtain ⟨walletID, -, hw⟩ := Option.bind_eq_some_iff.mp hw
  exact hvalid w (List.mem_of_find?_eq_some hw) o (OwnerList.mem_of_first ho).1

theorem handleSend_iff (hvalid : OwnersValid lib r) {m : SendTransactionMessage}
    (hm : m.safe.Hexadecimal lib ∧ m.toAddress.Hexadecimal lib ∧ m.gasToken.Hexadecimal lib) :
    (∃ out, handleSend lib metadata r m id clock = .ok out) ↔
      Receivable lib metadata r (.sendTransaction m) := by
  simp only [handleSend_effect]
  constructor
  · rintro ⟨out, h⟩ hfind w hw
    have hproposes : ∀ {w' decoded hash}, Proposes lib metadata r m w' decoded hash →
        isInt (m.txGas + m.dataGas) = true ∧ (transferSelector <+: m.data → 68 ≤ m.data.length) :=
      fun hp => ⟨hp.gas_isInt, decodedTransfer_iff.mp ⟨_, hp.decodes⟩⟩
    cases h with
    | known tx h => rw [hfind] at h; cases h
    | noWallet _ h => rw [hw] at h; cases h
    | otherHash w' decoded hash _ hw' hp hne =>
        obtain rfl := Option.some.inj (hw.symm.trans hw')
        refine ⟨(hproposes hp).1, (hproposes hp).2, fun decoded' hp' => ?_⟩
        -- the described transaction has one hash, and it is not the claimed one
        obtain rfl := Except.ok.inj (hp.decodes.symm.trans hp'.decodes)
        exact absurd (Except.ok.inj (hp.hashes.symm.trans hp'.hashes)) hne
    | otherSigner w' decoded _ hw' hp hs =>
        exact ⟨(hproposes hp).1, (hproposes hp).2, fun _ _ => (extensionSigner_iff _ _).mp ⟨_, hs⟩⟩
    | accepted w' decoded signature _ hw' hp hs _ _ =>
        exact ⟨(hproposes hp).1, (hproposes hp).2, fun _ _ => (extensionSigner_iff _ _).mp ⟨_, hs⟩⟩
  · intro h
    cases hfind : r.findHash m.hash with
    | some tx => exact ⟨_, .known tx hfind⟩
    | none =>
        cases hw : r.walletAt m.safe with
        | none => exact ⟨_, .noWallet hfind hw⟩
        | some w =>
            obtain ⟨hgas, hdata, hread⟩ := h hfind w hw
            obtain ⟨decoded, hdecoded⟩ := decodedTransfer_iff.mpr hdata
            obtain ⟨hash, hhash⟩ := hash_described metadata r.wallets
              { id := [], type := .transfer, walletID := w.id,
                accountID := ⟨Token.Ether.id, w.id⟩, sender := some m.safe } rfl hm hdecoded
            have hp : Proposes lib metadata r m w decoded hash := ⟨hgas, hdecoded, hhash⟩
            by_cases heq : hash = m.hash
            · subst heq
              have hreadable := hread decoded hp
              obtain ⟨o, ho⟩ := (extensionSigner_iff _ _).mpr hreadable
              cases o with
              | none => exact ⟨_, .otherSigner w decoded hfind hw hp ho⟩
              | some a =>
                  obtain ⟨data, hdata⟩ := dataFromSignature_iff.mpr hreadable
                  exact ⟨_, .accepted w decoded ⟨a, data⟩ hfind hw hp ho
                    (ofString_extension hvalid (extensionSigner_some ho).1) hdata⟩
            · exact ⟨_, .otherHash w decoded hash hfind hw hp heq⟩

/-- A refused message leaves the repositories as they were. -/
theorem receive_none (hfresh : ∀ t ∈ r.transactions, t.id ≠ id) {userInfo : UserInfo}
    {r' : Repositories} (h : receive lib metadata r userInfo id clock = .ok (none, r')) :
    r' = r := by
  unfold receive at h
  generalize hout : (none, r') = out at h
  split at h
  · obtain rfl := Except.ok.inj h
    exact (Prod.mk.inj hout).2
  · rcases handleConfirmed_ok h with rfl | ⟨_, _, _, _, -, -, -, -, rfl⟩
    · exact (Prod.mk.inj hout).2
    · cases hout
  · rcases handleRejected_ok h with rfl | ⟨_, _, -, -, rfl⟩
    · exact (Prod.mk.inj hout).2
    · cases hout
  · cases handleSend_effect.mp h with
    | known tx hfind => exact (Prod.mk.inj hout).2
    | noWallet _ _ => exact (Prod.mk.inj hout).2
    | otherHash w decoded hash _ _ _ _ =>
        rw [(Prod.mk.inj hout).2]
        exact Repositories.remove_fresh hfresh
    | otherSigner w decoded _ _ _ _ =>
        rw [(Prod.mk.inj hout).2]
        exact Repositories.remove_fresh hfresh
    | accepted w decoded signature _ _ _ _ _ _ => cases hout

variable (id clock) in
theorem receive_iff (hvalid : OwnersValid lib r) {userInfo : UserInfo} :
    (∃ out, receive lib metadata r userInfo id clock = .ok out) ↔
      ∀ m, Message.create lib userInfo = some m → Receivable lib metadata r m := by
  unfold receive
  cases hcreate : Message.create lib userInfo with
  | none => exact ⟨fun _ _ h => (by cases h), fun _ => ⟨_, rfl⟩⟩
  | some message =>
      simp only [Option.some.injEq, forall_eq']
      cases message with
      | transactionConfirmed m => exact handleConfirmed_iff
      | transactionRejected m => exact handleRejected_iff
      | sendTransaction m =>
          have hmessage : SendTransactionMessage.ofUserInfo lib userInfo = some m := by
            unfold Message.create at hcreate
            split at hcreate
            · cases hcreate
            · split at hcreate
              · cases hcreate
              · obtain ⟨m', hm', hmap⟩ := Option.map_eq_some_iff.mp hcreate
                cases hmap
                exact hm'
          exact handleSend_iff hvalid (SendTransactionMessage.hexadecimal_of_ofUserInfo hmessage)

/-! ### A transfer without arguments -/

/-- A proposal's dictionary with the given data and gas. -/
def proposalInfo (data txGas : String) : UserInfo := fun key =>
  List.lookup key [
    ("type", "sendTransaction".toList),
    ("hash", "0x3ae0238b61c86bdd0a2c0b81e1e4a34d93be01431cd7a3cee33d9869338c1db0".toList),
    ("safe", EncryptionService.confirmationSender.value),
    ("to", EncryptionService.confirmationRecipient.value),
    ("value", "0".toList),
    ("data", data.toList),
    ("operation", "0".toList),
    ("txGas", txGas.toList),
    ("dataGas", "24600".toList),
    ("operationalGas", "48200".toList),
    ("gasPrice", "10000".toList),
    ("gasToken", Address.zero.value),
    ("nonce", "1".toList),
    ("r", (transferProposal 0).signature.r),
    ("s", (transferProposal 0).signature.s),
    ("v", "28".toList)]

/-- The proposal whose data is an empty call. -/
theorem create_proposalInfo :
    Message.create reference (proposalInfo "0x" "21500") =
      some (.sendTransaction { transferProposal 0 with data := [] }) := by
  decide +kernel

-- and so does gas that is too large to be added
example : (receive reference EncryptionService.noMetadata pairedRepositories
    (proposalInfo "0x" "9223372036854775807") ['t'] (fun _ => 0)).toOption.isNone = true := by
  decide +kernel

end

end WalletApplicationService

end MultisigWallet
