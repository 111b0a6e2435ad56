import MultisigWallet.EncryptionSound
import MultisigWallet.WalletApplication

/-!
# MultisigWallet.ContentSound

What is signed, what the browser extension is asked to confirm and what the relay gets are
one content. The three are written by different encoders: words of 32 bytes for the hash,
two records of strings for the relay and for the extension.

Here the strings are read back, by readers that know nothing of a transaction, into a
`Preimage`, and the hash is computed once more from that by a reference encoder. The
encoders agree when both readings are the pre-image the transaction describes.
-/

namespace MultisigWallet

/-! ### Reading strings -/

/-- A number that is not negative, in base 10. -/
def readNumber (lib : ThirdParty) (s : Str) : Option Nat :=
  (lib.bigInt s 10).bind Int.toNat?

/-- `0x` and 40 hex digits. -/
def readAddress (s : Str) : Option Nat :=
  if hexMark <+: s ∧ s.length = 42 ∧ ∀ c ∈ s.drop 2, c ∈ Bytes.hexDigits then
    some (Bytes.hexValue (s.drop 2))
  else none

/-- The empty string, or `0x` and two hex digits a byte. -/
def readBytes (s : Str) : Option Data :=
  if s = [] then some []
  else if hexMark <+: s ∧ s.length % 2 = 0 ∧ ∀ c ∈ s.drop 2, c ∈ Bytes.hexDigits then
    some (Bytes.ofHex (s.drop 2))
  else none

/-- The number of a wallet operation. -/
def readOperation (lib : ThirdParty) (s : Str) : Option WalletOperation :=
  (lib.bigInt s 10).bind WalletOperation.ofRawValue

theorem readNumber_eq {lib : ThirdParty} {s : Str} {n : Nat}
    (h : lib.bigInt s 10 = some (n : Int)) : readNumber lib s = some n := by
  rw [readNumber, h]
  rfl

theorem readNumber_stringOfInt (lib : ThirdParty) {i : Int} {n : Nat} (h : i = n) :
    readNumber lib (stringOfInt i) = some n := by
  rw [h]
  exact readNumber_eq (bigInt_stringOfInt lib n)

theorem readAddress_eq {a : Address} (h : a.WellFormed) : readAddress a.value = some a.toNat := by
  obtain ⟨s, ha, hlen, hs⟩ := h
  have hdrop : a.value.drop 2 = s := by
    rw [ha]
    rfl
  have hlength : a.value.length = 42 := by
    rw [ha, List.length_append, hlen]
    rfl
  rw [readAddress, if_pos ⟨ha ▸ List.prefix_append _ _, hlength, hdrop ▸ hs⟩]
  rfl

theorem readBytes_toHex (d : Data) : readBytes (hexMark ++ Bytes.toHex d) = some d := by
  have hne : hexMark ++ Bytes.toHex d ≠ [] := List.cons_ne_nil _ _
  have hdrop : (hexMark ++ Bytes.toHex d).drop 2 = Bytes.toHex d := rfl
  have hlength : (hexMark ++ Bytes.toHex d).length % 2 = 0 := by
    rw [List.length_append, Bytes.length_toHex, Nat.add_mul_mod_self_left]
    rfl
  have hdigits : ∀ c ∈ (hexMark ++ Bytes.toHex d).drop 2, c ∈ Bytes.hexDigits := fun c hc =>
    Bytes.lowerHex_subset_hexDigits c (Bytes.mem_lowerHex_of_mem_toHex c (hdrop ▸ hc))
  rw [readBytes, if_neg hne, if_pos ⟨List.prefix_append _ _, hlength, hdigits⟩, hdrop,
    Bytes.ofHex_toHex]

/-- Data that is missing and data that is empty are read alike. -/
theorem readBytes_ethData (tx : Transaction) : readBytes tx.ethData = some (tx.data.getD []) := by
  unfold Transaction.ethData
  cases tx.data with
  | none => rfl
  | some d => exact readBytes_toHex d

theorem ofRawValue_rawValue (o : WalletOperation) :
    WalletOperation.ofRawValue o.rawValue = some o := by
  cases o <;> rfl

theorem readOperation_stringOfInt (lib : ThirdParty) (o : WalletOperation) :
    readOperation lib (stringOfInt o.rawValue) = some o := by
  rw [readOperation, bigInt_stringOfInt]
  exact ofRawValue_rawValue o

/-! ### Reading the two records -/

namespace Preimage

/-- What a request to the relay says. -/
def ofRequest (lib : ThirdParty) (request : SubmitTransactionRequest) : Option Preimage := do
  let sender ← readAddress request.safe
  let ethTo ← readAddress request.toAddress
  let ethValue ← readNumber lib request.value
  let data ← readBytes request.data
  let operation ← WalletOperation.ofRawValue request.operation.rawValue
  let gas ← readNumber lib request.safeTxGas
  let dataGas ← readNumber lib request.dataGas
  let gasPrice ← readNumber lib request.gasPrice
  let gasToken ← readAddress request.gasToken
  let nonce ← readNumber lib request.nonce
  return { sender, ethTo, ethValue, data, operation, gas, dataGas, gasPrice, gasToken, nonce }

/-- What a request to confirm says. -/
def ofMessage (lib : ThirdParty) (message : WalletApplicationService.ConfirmationRequest) :
    Option Preimage := do
  let sender ← readAddress message.safe
  let ethTo ← readAddress message.toAddress
  let ethValue ← readNumber lib message.value
  let data ← readBytes message.data
  let operation ← readOperation lib message.operation
  let gas ← readNumber lib message.txGas
  let dataGas ← readNumber lib message.dataGas
  let gasPrice ← readNumber lib message.gasPrice
  let gasToken ← readAddress message.gasToken
  let nonce ← readNumber lib message.nonce
  return { sender, ethTo, ethValue, data, operation, gas, dataGas, gasPrice, gasToken, nonce }

/-- The reference encoder: EIP-712, with the zero address as the refund receiver. -/
def eip712 (keccak : Data → Data) (domainTypeHash txTypeHash : Data) (p : Preimage) : Data :=
  let domain := domainTypeHash ++ Abi.word p.sender
  let value := txTypeHash ++ Abi.word p.ethTo ++ Abi.word p.ethValue ++ keccak p.data ++
    Abi.word p.operation.rawValue.toNat ++ Abi.word p.gas ++ Abi.word p.dataGas ++
    Abi.word p.gasPrice ++ Abi.word p.gasToken ++ Abi.word 0 ++ Abi.word p.nonce
  keccak ([0x19, 0x01] ++ keccak domain ++ keccak value)

variable {lib : ThirdParty} {p : Preimage} {tx : Transaction}

/-- The relay gets what the transaction describes. -/
theorem Describes.ofRequest (h : p.Describes lib tx) (signatures : List EthSignature) :
    ∃ request, SubmitTransactionRequest.ofTransaction lib tx signatures = .ok request ∧
      Preimage.ofRequest lib request = some p := by
  obtain ⟨a, hsender, ha, hanat⟩ := h.sender
  obtain ⟨e, hestimate, hgas, hdataGas, hprice, htoken, htokenNat⟩ := h.estimate
  obtain ⟨s, hnonce, hvalue⟩ := h.nonce
  obtain ⟨safe, hsafe, hsafeForm, hsafeNat⟩ := EncryptionService.address_wellFormed lib ha
  obtain ⟨toAddress, hto, htoForm, htoNat⟩ := EncryptionService.address_wellFormed lib h.ethTo.1
  have hid : readAddress e.gasPrice.token.id = some e.gasPrice.token.address.toNat :=
    readAddress_eq htoken
  have hbytes : readBytes tx.ethData = some p.data := h.data ▸ readBytes_ethData tx
  have hrequest : SubmitTransactionRequest.ofTransaction lib tx signatures = .ok
      { safe := safe.value, toAddress := toAddress.value, value := stringOfInt tx.ethValue
        data := tx.ethData, operation := p.operation, signatures
        safeTxGas := stringOfInt e.gas, dataGas := stringOfInt e.dataGas
        gasPrice := stringOfInt e.gasPrice.amount, gasToken := e.gasPrice.token.id, nonce := s } := by
    simp only [SubmitTransactionRequest.ofTransaction, hsender, hsafe, hto, h.operation, hestimate,
      hnonce, unwrap_some, bind, Except.bind, pure, Except.pure]
  refine ⟨_, hrequest, ?_⟩
  simp only [Preimage.ofRequest, readAddress_eq hsafeForm, readAddress_eq htoForm,
    readNumber_stringOfInt lib h.ethValue.1, hbytes, ofRawValue_rawValue,
    readNumber_stringOfInt lib hgas, readNumber_stringOfInt lib hdataGas,
    readNumber_stringOfInt lib hprice, hid, readNumber_eq hvalue, hsafeNat, hanat, htoNat,
    h.ethTo.2, htokenNat, bind, Option.bind, pure]

/-- The extension is asked to confirm what the transaction describes. -/
theorem Describes.ofMessage (h : p.Describes lib tx) (hash : Data) :
    ∃ message, WalletApplicationService.requestConfirmationMessage lib tx hash = .ok message ∧
      Preimage.ofMessage lib message = some p ∧ readBytes message.hash = some hash := by
  obtain ⟨a, hsender, ha, hanat⟩ := h.sender
  obtain ⟨e, hestimate, hgas, hdataGas, hprice, htoken, htokenNat⟩ := h.estimate
  obtain ⟨s, hnonce, hvalue⟩ := h.nonce
  obtain ⟨safe, hsafe, hsafeForm, hsafeNat⟩ := EncryptionService.address_wellFormed lib ha
  obtain ⟨toAddress, hto, htoForm, htoNat⟩ := EncryptionService.address_wellFormed lib h.ethTo.1
  have hbytes : readBytes tx.ethData = some p.data := h.data ▸ readBytes_ethData tx
  have hmark : lib.addHexPrefix (Bytes.toHex hash) = hexMark ++ Bytes.toHex hash :=
    lib.addHexPrefix_digits _ fun c hc =>
      Bytes.lowerHex_subset_hexDigits c (Bytes.mem_lowerHex_of_mem_toHex c hc)
  have hmessage : WalletApplicationService.requestConfirmationMessage lib tx hash = .ok
      { hash := lib.addHexPrefix (Bytes.toHex hash), safe := safe.value
        toAddress := toAddress.value, value := stringOfInt tx.ethValue, data := tx.ethData
        operation := stringOfInt p.operation.rawValue
        txGas := stringOfInt e.gas, dataGas := stringOfInt e.dataGas
        operationalGas := stringOfInt e.operationalGas
        gasPrice := stringOfInt e.gasPrice.amount, gasToken := e.gasPrice.token.address.value
        nonce := s } := by
    simp only [WalletApplicationService.requestConfirmationMessage, hsender, hsafe, hto,
      h.operation, hestimate, hnonce, unwrap_some, bind, Except.bind, pure, Except.pure]
  refine ⟨_, hmessage, ?_, ?_⟩
  · simp only [Preimage.ofMessage, readAddress_eq hsafeForm, readAddress_eq htoForm,
      readNumber_stringOfInt lib h.ethValue.1, hbytes, readOperation_stringOfInt,
      readNumber_stringOfInt lib hgas, readNumber_stringOfInt lib hdataGas,
      readNumber_stringOfInt lib hprice, readAddress_eq htoken, readNumber_eq hvalue, hsafeNat,
      hanat, htoNat, h.ethTo.2, htokenNat, bind, Option.bind, pure]
  · show readBytes (lib.addHexPrefix (Bytes.toHex hash)) = some hash
    rw [hmark, readBytes_toHex]

end Preimage

namespace EncryptionService

/-! ### One content -/

variable {lib : ThirdParty} {p : Preimage} {tx : Transaction}

/-- The wallet signs the reference encoding of what the transaction describes. -/
theorem hash_eq_eip712 (metadata : SafeContractMetadata) (wallets : List Wallet)
    (h : p.Describes lib tx) :
    hash lib metadata wallets tx = .ok (p.eip712 lib.hashSHA3_256
      (domainSeparatorTypeHash metadata wallets tx) (txTypeHash metadata wallets tx)) := by
  rw [hash, hashData, domainData_eq metadata wallets h, valueData_eq metadata wallets h]
  simp only [Preimage.eip712, Preimage.words, Abi.words_cons, Abi.words_nil, List.append_assoc,
    List.append_nil, bind, Except.bind, pure, Except.pure]

/-- A transfer of a token goes to the token's contract and carries no Ether. -/
theorem ethTo_of_token (h : p.Describes lib tx) {amount : TokenAmount}
    (hamount : tx.amount = some amount) (htoken : amount.token.id ≠ Token.Ether.id) :
    p.ethTo = amount.token.address.toNat ∧ p.ethValue = 0 := by
  have herc20 : tx.isERC20Transfer = true := by
    rw [Transaction.isERC20Transfer, hamount]
    exact decide_eq_true htoken
  have hto : tx.ethTo = amount.token.address := by
    rw [Transaction.ethTo, herc20, hamount]
    rfl
  have hvalue : tx.ethValue = 0 := by
    rw [Transaction.ethValue, herc20]
    rfl
  refine ⟨?_, ?_⟩
  · rw [← h.ethTo.2, hto]
  · exact Int.natCast_eq_zero.mp (h.ethValue.1.symm.trans hvalue)

/-- For every transaction with its fields set, the request to the relay and the request to
confirm can be made and are read back as the same pre-image, and what the wallet signs is the
reference encoding of that pre-image. -/
theorem content_agrees (metadata : SafeContractMetadata) (wallets : List Wallet)
    (signatures : List EthSignature) (h : p.Describes lib tx) :
    ∃ request digest message,
      SubmitTransactionRequest.ofTransaction lib tx signatures = .ok request ∧
      hash lib metadata wallets tx = .ok digest ∧
      WalletApplicationService.requestConfirmationMessage lib tx digest = .ok message ∧
      Preimage.ofRequest lib request = some p ∧ Preimage.ofMessage lib message = some p ∧
      readBytes message.hash = some digest ∧
      digest = p.eip712 lib.hashSHA3_256 (domainSeparatorTypeHash metadata wallets tx)
        (txTypeHash metadata wallets tx) ∧
      (∀ amount, tx.amount = some amount → amount.token.id ≠ Token.Ether.id →
        p.ethTo = amount.token.address.toNat ∧ p.ethValue = 0) ∧
      (tx.data = none ∨ tx.data = some [] → p.data = []) := by
  have hhash := hash_eq_eip712 metadata wallets h
  obtain ⟨request, hrequest, hofRequest⟩ := h.ofRequest signatures
  obtain ⟨message, hmessage, hofMessage, hdigest⟩ := h.ofMessage _
  refine ⟨request, _, message, hrequest, hhash, hmessage, hofRequest, hofMessage, hdigest, rfl,
    fun amount => ethTo_of_token h, ?_⟩
  rintro (hdata | hdata)
  · rw [← h.data, hdata]
    rfl
  · rw [← h.data, hdata]
    rfl

/-! ### A transfer of tokens -/

def transferToken : Token := ⟨"GNO".toList, "Gnosis".toList, 18, confirmationRecipient, []⟩

/-- The payment of the fixture, in tokens and with the data of the contract's method. -/
def tokenTransfer : Transaction :=
  { confirmationRequest 1 with
    amount := some ⟨1000123, transferToken⟩, data := some [0xa9, 0x05, 0x9c, 0xbb] }

def tokenPreimage : Preimage :=
  { confirmationPreimage 1 with ethValue := 0, data := [0xa9, 0x05, 0x9c, 0xbb] }

theorem describes_tokenTransfer : tokenPreimage.Describes reference tokenTransfer := by
  have h : (confirmationPreimage 1).Describes reference (confirmationRequest 1) :=
    describes_confirmationRequest (by decide)
  exact {
    sender := h.sender
    ethTo := h.ethTo
    ethValue := ⟨rfl, show 0 < 2 ^ 256 by decide⟩
    data := rfl
    operation := rfl
    estimate := h.estimate
    gas_lt := h.gas_lt
    nonce := h.nonce
    nonce_lt := h.nonce_lt }

theorem content_agrees_tokenTransfer :
    ∃ request digest message,
      SubmitTransactionRequest.ofTransaction reference tokenTransfer [] = .ok request ∧
      hash reference noMetadata [] tokenTransfer = .ok digest ∧
      WalletApplicationService.requestConfirmationMessage reference tokenTransfer digest =
        .ok message ∧
      Preimage.ofRequest reference request = some tokenPreimage ∧
      Preimage.ofMessage reference message = some tokenPreimage ∧
      digest = tokenPreimage.eip712 reference.hashSHA3_256 defaultDomainSeparatorTypeHash
        defaultTxTypeHash ∧ tokenPreimage.ethTo = transferToken.address.toNat := by
  obtain ⟨request, digest, message, hrequest, hhash, hmessage, hofRequest, hofMessage, -, heip712,
    htoken, -⟩ := content_agrees noMetadata [] [] describes_tokenTransfer
  exact ⟨request, digest, message, hrequest, hhash, hmessage, hofRequest, hofMessage, heip712,
    (htoken _ rfl (by decide)).1⟩

end EncryptionService

end MultisigWallet
