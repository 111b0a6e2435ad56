import MultisigWallet.EncryptionSound
import MultisigWallet.RecoveryService
import MultisigWallet.TransactionSound
import MultisigWallet.WalletSettings

/-!
# MultisigWallet.EstimationSound

The fee of a transaction, from the relay's answer to the check that it can be paid.

Four services record an estimation. They agree on the amounts, and differ in the token they
take the gas to be paid in and in how they add the gas: `EstimationPath.Faithful` says for
each of them what it takes for the answer to be recorded as it is.

Three services check a balance. The account they look at was chosen when the transaction was
made, the token to be paid when it was estimated.
-/

namespace MultisigWallet

/-! ### Recording an estimation -/

/-- The transaction has the estimation that the relay answered with, and its fee. -/
def Recorded (response : EstimateTransactionResponse) (tx : Transaction) : Prop :=
  ∃ estimate, tx.feeEstimate = some estimate ∧ estimate.gas = response.safeTxGas ∧
    estimate.dataGas = response.dataGas ∧ estimate.operationalGas = response.operationalGas ∧
    estimate.gasPrice.amount = response.gasPrice ∧
    estimate.gasPrice.token.address.value = response.gasToken ∧
    tx.fee = some estimate.totalSubmittedToBlockchain

/-- Where an estimation is recorded. -/
inductive EstimationPath
  | transfer (r : Repositories) (id : TransactionID) (clock : Clock)
  | recovery (b : RecoveryTransactionBuilder) (tokens : List Token) (now : Date)
  | browserExtension (r : Repositories) (id : TransactionID) (clock : Clock)
  | recoveryPhrase (tx : Transaction) (clock : Clock)

namespace EstimationPath

variable (lib : ThirdParty) (metadata : SafeContractMetadata)

/-- The transaction that is stored when the relay gives an answer. -/
def record (response : EstimateTransactionResponse) : EstimationPath → Except Trap Transaction
  | transfer r id clock => do
      let (_, r) ← WalletApplicationService.estimateTransactionIfNeeded lib metadata r id
        (fun _ => some response) clock
      unwrap "find(id:)" (r.find id)
  | recovery b tokens now => do
      let b ← RecoveryDomainService.calculateFees b tokens response now
      return b.transaction
  | browserExtension r id clock => do
      let (_, r) ← ReplaceBrowserExtensionDomainService.estimateNetworkFee lib r id
        (fun _ => some response) clock
      unwrap "find(id:)" (r.find id)
  | recoveryPhrase tx clock => WalletSettingsDomainService.changeFees tx response clock

/-- The relay is asked, and whatever it answers is not what keeps the transaction from being
stored: there is an answer with which it is. -/
def Ready : EstimationPath → Prop
  | transfer r id clock =>
      (∃ tx, r.find id = some tx ∧
        (tx.feeEstimate = none ∨ tx.type = .connectBrowserExtension ∧ tx.status = .draft)) ∧
      (∀ t ∈ r.tokens, t.address.WellFormed) ∧
      ∃ response r', WalletApplicationService.estimateTransactionIfNeeded lib metadata r id
        (fun _ => some response) clock = .ok (some (), r')
  | recovery b _ _ => b.transaction.status = .draft
  | browserExtension r id clock =>
      ∃ response r', ReplaceBrowserExtensionDomainService.estimateNetworkFee lib r id
        (fun _ => some response) clock = .ok r'
  | recoveryPhrase tx _ => tx.status = .draft

/-- The token list has the token, or it is Ether. -/
def Known (tokens : List Token) (gasToken : TokenID) : Prop :=
  gasToken = Token.Ether.id ∨ ∃ t ∈ tokens, t.id = gasToken

/-- The next nonce is an `Int`. -/
def NonceFits (response : EstimateTransactionResponse) : Prop :=
  ∀ nonce ∈ response.lastUsedNonce, isInt (nonce + 1) = true

/-- The gas that is submitted is an `Int`. -/
def GasFits (response : EstimateTransactionResponse) : Prop :=
  isInt (response.safeTxGas + response.dataGas) = true

/-- When an answer is recorded as it is. -/
def Faithful (response : EstimateTransactionResponse) : EstimationPath → Prop
  | transfer r _ _ => Known r.tokens response.gasToken ∧ GasFits response ∧ NonceFits response
  | recovery _ tokens _ => Known tokens response.gasToken ∧ NonceFits response
  | browserExtension r _ _ => Known r.tokens response.gasToken ∧ NonceFits response
  | recoveryPhrase _ _ =>
      response.gasToken = Token.Ether.id ∧ GasFits response ∧ NonceFits response

variable {lib metadata} {r r' : Repositories} {tx tx' : Transaction} {id : TransactionID}
  {response : EstimateTransactionResponse} {clock : Clock}

/-! ### Tokens and nonces -/

theorem nextNonce_ok :
    (∃ nonce, response.nextNonce = .ok nonce) ↔ NonceFits response := by
  unfold EstimateTransactionResponse.nextNonce NonceFits
  cases response.lastUsedNonce with
  | none => simp
  | some nonce => simp [addInt_ok]

/-- The token that two of the services take. -/
theorem feeToken_address (tokens : List Token) (gasToken : TokenID) :
    ((tokens.find? (·.id = gasToken)).getD Token.Ether).address.value = gasToken ↔
      Known tokens gasToken := by
  cases hfind : tokens.find? (·.id = gasToken) with
  | some t =>
      have hid : t.id = gasToken := by simpa using List.find?_some hfind
      exact iff_of_true hid (.inr ⟨t, List.mem_of_find?_eq_some hfind, hid⟩)
  | none =>
      have hunknown : ¬∃ t ∈ tokens, t.id = gasToken := by
        rintro ⟨t, ht, hid⟩
        simpa [hid] using List.find?_eq_none.mp hfind t ht
      constructor
      · intro h
        exact .inl h.symm
      · intro h
        exact (h.resolve_right hunknown).symm

/-- The token that the application service takes, if it finds one. -/
theorem token_some {gasToken : TokenID} {t : Token}
    (h : WalletApplicationService.token r gasToken = some t) :
    t.id = gasToken ∧ (t = Token.Ether ∨ t ∈ r.tokens) := by
  unfold WalletApplicationService.token at h
  split at h
  · rename_i hether
    obtain rfl := Option.some.inj h
    exact ⟨hether.symm, .inl rfl⟩
  · exact ⟨by simpa using List.find?_some h, .inr (List.mem_of_find?_eq_some h)⟩

theorem token_isSome (gasToken : TokenID) :
    (∃ t, WalletApplicationService.token r gasToken = some t) ↔ Known r.tokens gasToken := by
  constructor
  · rintro ⟨t, ht⟩
    obtain ⟨hid, rfl | hmem⟩ := token_some ht
    · exact .inl hid.symm
    · exact .inr ⟨t, hmem, hid⟩
  · intro hknown
    unfold WalletApplicationService.token
    split
    · exact ⟨_, rfl⟩
    · rename_i hether
      obtain ⟨t, ht, hid⟩ := hknown.resolve_left hether
      refine Option.isSome_iff_exists.mp (List.find?_isSome.mpr ⟨t, ht, ?_⟩)
      exact decide_eq_true hid

/-! ### The changes of a draft -/

section Changes

variable {fee : Option TokenAmount} {estimate : Option TransactionFeeEstimate}
  {nonce : Option Str} {d₁ d₂ d₃ : Date} {tx₁ tx₂ tx₃ : Transaction}

/-- The three changes that the services have in common. -/
theorem changes_ok (h₁ : tx.change (.fee fee) d₁ = .ok tx₁)
    (h₂ : tx₁.change (.feeEstimate estimate) d₂ = .ok tx₂)
    (h₃ : tx₂.change (.nonce nonce) d₃ = .ok tx₃) :
    tx₃.id = tx.id ∧ tx₃.feeEstimate = estimate ∧ tx₃.fee = fee := by
  obtain ⟨hid₁, -, hcontent₁⟩ := Transaction.change_frame h₁
  obtain ⟨hid₂, -, hcontent₂⟩ := Transaction.change_frame h₂
  obtain ⟨hid₃, -, hcontent₃⟩ := Transaction.change_frame h₃
  have hfee : tx₁.content = { tx.content with fee } := hcontent₁
  have hestimate : tx₂.content = { tx₁.content with feeEstimate := estimate } := hcontent₂
  have hnonce : tx₃.content = { tx₂.content with nonce } := hcontent₃
  rw [hestimate, hfee] at hnonce
  exact ⟨hid₃.trans (hid₂.trans hid₁), congrArg Transaction.Content.feeEstimate hnonce,
    congrArg Transaction.Content.fee hnonce⟩

theorem exists_changes (hdraft : tx.status = .draft) (fee : Option TokenAmount)
    (estimate : Option TransactionFeeEstimate) (nonce : Option Str) (d₁ d₂ d₃ : Date) :
    ∃ tx₁ tx₂ tx₃, tx.change (.fee fee) d₁ = .ok tx₁ ∧
      tx₁.change (.feeEstimate estimate) d₂ = .ok tx₂ ∧
      tx₂.change (.nonce nonce) d₃ = .ok tx₃ := by
  obtain ⟨tx₁, h₁, hdraft₁⟩ := Transaction.exists_change hdraft (.fee fee) d₁
  obtain ⟨tx₂, h₂, hdraft₂⟩ := Transaction.exists_change hdraft₁ (.feeEstimate estimate) d₂
  obtain ⟨tx₃, h₃, -⟩ := Transaction.exists_change hdraft₂ (.nonce nonce) d₃
  exact ⟨tx₁, tx₂, tx₃, h₁, h₂, h₃⟩

end Changes

/-! ### The four paths -/

/-- `WalletSettingsDomainService.calculateFees(basedOn:)` always takes Ether, and adds `Int`s. -/
theorem record_recoveryPhrase (hdraft : tx.status = .draft) (clock : Clock) :
    (∃ tx', WalletSettingsDomainService.changeFees tx response clock = .ok tx' ∧
      Recorded response tx') ↔
    response.gasToken = Token.Ether.id ∧ GasFits response ∧ NonceFits response := by
  constructor
  · rintro ⟨tx', h, estimate, hestimate, -, -, -, -, htoken, -⟩
    obtain ⟨⟨fee, estimate', nonce⟩, hfees, h⟩ := bind_ok.mp h
    obtain ⟨gas, hgas, hfees⟩ := bind_ok.mp hfees
    obtain ⟨nonce', hnonce, hfees⟩ := bind_ok.mp hfees
    obtain ⟨-, hfees⟩ := Prod.mk.inj (Except.ok.inj hfees)
    obtain ⟨rfl, -⟩ := Prod.mk.inj hfees
    obtain ⟨tx₁, h₁, h⟩ := bind_ok.mp h
    obtain ⟨tx₂, h₂, h₃⟩ := bind_ok.mp h
    rw [(changes_ok h₁ h₂ h₃).2.1] at hestimate
    obtain rfl := Option.some.inj hestimate
    exact ⟨htoken.symm, (addInt_ok.mp hgas).1, nextNonce_ok.mp ⟨_, hnonce⟩⟩
  · rintro ⟨htoken, hgas, hnonce⟩
    obtain ⟨nonce, hnonce⟩ := nextNonce_ok.mpr hnonce
    have hsum : addInt response.safeTxGas response.dataGas =
        .ok (response.safeTxGas + response.dataGas) := addInt_ok.mpr ⟨hgas, rfl⟩
    obtain ⟨tx₁, tx₂, tx₃, h₁, h₂, h₃⟩ := exists_changes hdraft
      (some ⟨(response.safeTxGas + response.dataGas) * response.gasPrice, Token.Ether⟩)
      (some ⟨response.safeTxGas, response.dataGas, response.operationalGas,
        ⟨response.gasPrice, Token.Ether⟩⟩) (some (stringOfInt nonce)) (clock 0) (clock 1) (clock 2)
    obtain ⟨-, hestimate, hfee⟩ := changes_ok h₁ h₂ h₃
    refine ⟨tx₃, ?_, _, hestimate, rfl, rfl, rfl, rfl, htoken.symm, ?_⟩
    · simp only [WalletSettingsDomainService.changeFees,
        WalletSettingsDomainService.calculateFees, hsum, hnonce, h₁, h₂, h₃, bind, Except.bind,
        pure, Except.pure]
    · rw [hfee, TransactionFeeEstimate.totalSubmittedToBlockchain, mul_comm]

/-- The estimation that two of the services make of an answer. -/
def estimateOf (tokens : List Token) (response : EstimateTransactionResponse) :
    TransactionFeeEstimate :=
  ⟨response.safeTxGas, response.dataGas, response.operationalGas,
    ⟨response.gasPrice, (tokens.find? (·.id = response.gasToken)).getD Token.Ether⟩⟩

theorem recorded_estimateOf {tokens : List Token}
    (hestimate : tx.feeEstimate = some (estimateOf tokens response))
    (hfee : tx.fee = some (estimateOf tokens response).totalSubmittedToBlockchain) :
    Recorded response tx ↔ Known tokens response.gasToken := by
  rw [← feeToken_address]
  constructor
  · rintro ⟨estimate, h, -, -, -, -, htoken, -⟩
    obtain rfl := Option.some.inj (hestimate.symm.trans h)
    exact htoken
  · intro htoken
    exact ⟨_, hestimate, rfl, rfl, rfl, rfl, htoken, hfee⟩

/-- `RecoveryTransactionBuilder.calculateFees(basedOn:)` takes Ether for a token it does not
know. -/
theorem record_recovery {b : RecoveryTransactionBuilder} (hdraft : b.transaction.status = .draft)
    (tokens : List Token) (now : Date) :
    (∃ b', RecoveryDomainService.calculateFees b tokens response now = .ok b' ∧
      Recorded response b'.transaction) ↔
    Known tokens response.gasToken ∧ NonceFits response := by
  constructor
  · rintro ⟨b', h, hrecorded⟩
    obtain ⟨tx₁, h₁, h⟩ := bind_ok.mp h
    obtain ⟨tx₂, h₂, h⟩ := bind_ok.mp h
    obtain ⟨nonce, hnonce, h⟩ := bind_ok.mp h
    obtain ⟨tx₃, h₃, h⟩ := bind_ok.mp h
    obtain rfl := Except.ok.inj h
    obtain ⟨-, hestimate, hfee⟩ := changes_ok h₁ h₂ h₃
    exact ⟨(recorded_estimateOf hestimate hfee).mp hrecorded, nextNonce_ok.mp ⟨_, hnonce⟩⟩
  · rintro ⟨htoken, hnonce⟩
    obtain ⟨nonce, hnonce⟩ := nextNonce_ok.mpr hnonce
    obtain ⟨tx₁, tx₂, tx₃, h₁, h₂, h₃⟩ := exists_changes hdraft
      (some (estimateOf tokens response).totalSubmittedToBlockchain)
      (some (estimateOf tokens response)) (some (stringOfInt nonce)) now now now
    obtain ⟨-, hestimate, hfee⟩ := changes_ok h₁ h₂ h₃
    refine ⟨{ b with transaction := tx₃ }, ?_, (recorded_estimateOf hestimate hfee).mpr htoken⟩
    unfold estimateOf at h₁ h₂
    simp only [RecoveryDomainService.calculateFees, hnonce, h₁, h₂, h₃, bind, Except.bind, pure,
      Except.pure]

/-- So does `estimateNetworkFee(for:)`. -/
theorem record_browserExtension
    (hready : ∃ response r', ReplaceBrowserExtensionDomainService.estimateNetworkFee lib r id
      (fun _ => some response) clock = .ok r') :
    (∃ fee r' tx', ReplaceBrowserExtensionDomainService.estimateNetworkFee lib r id
        (fun _ => some response) clock = .ok (fee, r') ∧ r'.find id = some tx' ∧
      Recorded response tx') ↔
    Known r.tokens response.gasToken ∧ NonceFits response := by
  obtain ⟨response₀, r₀, hready⟩ := hready
  obtain ⟨tx, htx, hready⟩ := bind_ok.mp hready
  obtain ⟨request, hrequest, hready⟩ := bind_ok.mp hready
  obtain ⟨tx₀, h₀, -⟩ := bind_ok.mp hready
  have hdraft := (Transaction.change_ok.mp h₀).1
  have hid : tx.id = id := by
    unfold ReplaceBrowserExtensionDomainService.transaction at htx
    split at htx
    · rename_i tx' hfind
      rw [← Except.ok.inj htx]
      exact Repositories.id_of_find hfind
    · cases htx
  constructor
  · rintro ⟨fee, r', tx', h, hfound, hrecorded⟩
    obtain ⟨tx₁, htx₁, h⟩ := bind_ok.mp h
    obtain ⟨request₁, hrequest₁, h⟩ := bind_ok.mp h
    obtain ⟨tx₂, h₂, h⟩ := bind_ok.mp h
    obtain ⟨tx₃, h₃, h⟩ := bind_ok.mp h
    obtain ⟨nonce, hnonce, h⟩ := bind_ok.mp h
    obtain ⟨tx₄, h₄, h⟩ := bind_ok.mp h
    obtain ⟨-, rfl⟩ := Prod.mk.inj (Except.ok.inj h)
    obtain rfl := Except.ok.inj (htx.symm.trans htx₁)
    obtain ⟨hid', hestimate, hfee⟩ := changes_ok h₂ h₃ h₄
    rw [← hid, ← hid', Repositories.find_save] at hfound
    obtain rfl := Option.some.inj hfound
    exact ⟨(recorded_estimateOf hestimate hfee).mp hrecorded, nextNonce_ok.mp ⟨_, hnonce⟩⟩
  · rintro ⟨htoken, hnonce⟩
    obtain ⟨nonce, hnonce⟩ := nextNonce_ok.mpr hnonce
    obtain ⟨tx₁, tx₂, tx₃, h₁, h₂, h₃⟩ := exists_changes hdraft
      (some (estimateOf r.tokens response).totalSubmittedToBlockchain)
      (some (estimateOf r.tokens response)) (some (stringOfInt nonce)) (clock 0) (clock 1)
      (clock 2)
    obtain ⟨hid', hestimate, hfee⟩ := changes_ok h₁ h₂ h₃
    refine ⟨.ok (estimateOf r.tokens response).totalDisplayedToUser, r.save tx₃, tx₃, ?_, ?_,
      (recorded_estimateOf hestimate hfee).mpr htoken⟩
    · unfold estimateOf at h₁ h₂
      simp only [ReplaceBrowserExtensionDomainService.estimateNetworkFee, htx, hrequest, hnonce,
        h₁, h₂, h₃, bind, Except.bind, pure, Except.pure]
      rfl
    · rw [← hid, ← hid', Repositories.find_save]

/-! ### A transfer -/

section Transfer

variable {estimate : TransactionFeeEstimate} {fee : TokenAmount} {nonce : Str}
  {tx₁ tx₂ tx₃ tx₄ : Transaction} {d₁ d₂ d₃ d₄ : Date}

/-- The changes up to the hash. -/
theorem fourChanges_ok (h₁ : tx.change (.feeEstimate (some estimate)) d₁ = .ok tx₁)
    (h₂ : tx₁.change (.fee (some fee)) d₂ = .ok tx₂)
    (h₃ : tx₂.change (.nonce (some nonce)) d₃ = .ok tx₃)
    (h₄ : tx₃.change (.operation (some .call)) d₄ = .ok tx₄) :
    tx₄.id = tx.id ∧ tx₄.status = tx.status ∧
      tx₄.content = { tx.content with
        feeEstimate := some estimate, fee := some fee, nonce := some nonce
        operation := some .call } := by
  obtain ⟨hid₁, hstatus₁, hcontent₁⟩ := Transaction.change_frame h₁
  obtain ⟨hid₂, hstatus₂, hcontent₂⟩ := Transaction.change_frame h₂
  obtain ⟨hid₃, hstatus₃, hcontent₃⟩ := Transaction.change_frame h₃
  obtain ⟨hid₄, hstatus₄, hcontent₄⟩ := Transaction.change_frame h₄
  have hfee : tx₂.content = { tx₁.content with fee := some fee } := hcontent₂
  have hnonce : tx₃.content = { tx₂.content with nonce := some nonce } := hcontent₃
  have hoperation : tx₄.content = { tx₃.content with operation := some .call } := hcontent₄
  refine ⟨hid₄.trans (hid₃.trans (hid₂.trans hid₁)),
    hstatus₄.trans (hstatus₃.trans (hstatus₂.trans hstatus₁)), ?_⟩
  rw [hoperation, hnonce, hfee, hcontent₁]
  rfl

/-- What the transaction needs besides an estimation to be hashed and to proceed. -/
structure Addressed (lib : ThirdParty) (tx : Transaction) : Prop where
  draft : tx.status = .draft
  recipient : tx.recipient.isSome = true
  amount : tx.amount.isSome = true
  sender : ∃ s d, tx.sender = some s ∧ EncryptionService.dataOfAddress lib s = .ok d
  ethTo : ∃ d, EncryptionService.dataOfAddress lib tx.ethTo = .ok d

/-- `updateTransaction(_:withFeeEsimate:nonce:)` adds `Int`s. -/
theorem updateWithFeeEstimate_ok
    (h : WalletApplicationService.updateWithFeeEstimate lib metadata r tx estimate nonce clock =
      .ok r') :
    Addressed lib tx ∧ isInt (estimate.gas + estimate.dataGas) = true ∧
      ∃ tx', r'.find tx.id = some tx' ∧ tx'.feeEstimate = some estimate ∧
        tx'.fee = some estimate.totalSubmittedToBlockchain := by
  obtain ⟨gas, hgas, h⟩ := bind_ok.mp h
  obtain ⟨tx₁, h₁, h⟩ := bind_ok.mp h
  obtain ⟨tx₂, h₂, h⟩ := bind_ok.mp h
  obtain ⟨tx₃, h₃, h⟩ := bind_ok.mp h
  obtain ⟨tx₄, h₄, h⟩ := bind_ok.mp h
  obtain ⟨hash, hhash, h⟩ := bind_ok.mp h
  obtain ⟨tx₅, h₅, h⟩ := bind_ok.mp h
  obtain ⟨tx₆, h₆, h⟩ := bind_ok.mp h
  obtain rfl := Except.ok.inj h
  obtain ⟨hfits, rfl⟩ := addInt_ok.mp hgas
  obtain ⟨hid, hstatus, hcontent⟩ := fourChanges_ok h₁ h₂ h₃ h₄
  obtain ⟨hid₅, hstatus₅, hcontent₅⟩ := Transaction.change_frame h₅
  have hdraft := (Transaction.change_ok.mp h₁).1
  have hdraft₅ : tx₅.status = .draft := hstatus₅.trans (hstatus.trans hdraft)
  obtain ⟨-, hrecipient, hamount, -, rfl⟩ := (Transaction.proceed_draft_ok hdraft₅).mp h₆
  have hhashable := (EncryptionService.hash_isOk metadata r.wallets).mp ⟨hash, hhash⟩
  obtain ⟨s, d, hs, hd⟩ := hhashable.sender
  obtain ⟨d', hto⟩ := hhashable.ethTo
  have hsender : tx₄.sender = tx.sender := congrArg Transaction.Content.sender hcontent
  have hrecipient₄ : tx₄.recipient = tx.recipient := congrArg Transaction.Content.recipient hcontent
  have hamount₄ : tx₄.amount = tx.amount := congrArg Transaction.Content.amount hcontent
  have hrecipient₅ : tx₅.recipient = tx₄.recipient :=
    congrArg Transaction.Content.recipient hcontent₅
  have hamount₅ : tx₅.amount = tx₄.amount := congrArg Transaction.Content.amount hcontent₅
  have hestimate₅ : tx₅.feeEstimate = tx₄.feeEstimate :=
    congrArg Transaction.Content.feeEstimate hcontent₅
  have hfee₅ : tx₅.fee = tx₄.fee := congrArg Transaction.Content.fee hcontent₅
  refine ⟨⟨hdraft, ?_, ?_, ⟨s, d, hsender ▸ hs, hd⟩, d', ?_⟩, hfits, ?_⟩
  · rwa [hrecipient₅, hrecipient₄] at hrecipient
  · rwa [hamount₅, hamount₄] at hamount
  · rwa [EncryptionService.ethTo_congr hamount₄ hrecipient₄] at hto
  · refine ⟨(tx₅.changeStatus .signing).timestampUpdated (clock 5), ?_, ?_, ?_⟩
    · rw [← hid, ← hid₅]
      exact Repositories.find_save r ((tx₅.changeStatus .signing).timestampUpdated (clock 5))
    · exact hestimate₅.trans (congrArg Transaction.Content.feeEstimate hcontent)
    · refine hfee₅.trans ((congrArg Transaction.Content.fee hcontent).trans ?_)
      rw [TransactionFeeEstimate.totalSubmittedToBlockchain, mul_comm]

theorem exists_updateWithFeeEstimate (metadata : SafeContractMetadata) (r : Repositories)
    (clock : Clock) (estimate : TransactionFeeEstimate) {k : Int} (haddressed : Addressed lib tx)
    (hgas : isInt (estimate.gas + estimate.dataGas) = true)
    (htoken : estimate.gasPrice.token.address.WellFormed) (hk : lib.bigInt nonce 10 = some k) :
    ∃ r', WalletApplicationService.updateWithFeeEstimate lib metadata r tx estimate nonce clock =
      .ok r' := by
  obtain ⟨hdraft, hrecipient, hamount, hsender, hto⟩ := haddressed
  have hsum : addInt estimate.gas estimate.dataGas = .ok (estimate.gas + estimate.dataGas) :=
    addInt_ok.mpr ⟨hgas, rfl⟩
  obtain ⟨tx₁, h₁, hdraft₁⟩ :=
    Transaction.exists_change hdraft (.feeEstimate (some estimate)) (clock 0)
  obtain ⟨tx₂, h₂, hdraft₂⟩ := Transaction.exists_change hdraft₁ (.fee (some
    ⟨(estimate.gas + estimate.dataGas) * estimate.gasPrice.amount, estimate.gasPrice.token⟩))
    (clock 1)
  obtain ⟨tx₃, h₃, hdraft₃⟩ := Transaction.exists_change hdraft₂ (.nonce (some nonce)) (clock 2)
  obtain ⟨tx₄, h₄, hdraft₄⟩ := Transaction.exists_change hdraft₃ (.operation (some .call)) (clock 3)
  obtain ⟨-, -, hcontent⟩ := fourChanges_ok h₁ h₂ h₃ h₄
  have hsender₄ : tx₄.sender = tx.sender := congrArg Transaction.Content.sender hcontent
  have hrecipient₄ : tx₄.recipient = tx.recipient := congrArg Transaction.Content.recipient hcontent
  have hamount₄ : tx₄.amount = tx.amount := congrArg Transaction.Content.amount hcontent
  have hhashable : EncryptionService.Hashable lib tx₄ :=
    ⟨by rwa [hsender₄], by rwa [EncryptionService.ethTo_congr hamount₄ hrecipient₄],
      ⟨_, congrArg Transaction.Content.operation hcontent⟩,
      ⟨estimate, _, congrArg Transaction.Content.feeEstimate hcontent,
        EncryptionService.dataOfAddress_eq lib htoken⟩,
      ⟨nonce, k, congrArg Transaction.Content.nonce hcontent, hk⟩⟩
  obtain ⟨hash, hhash⟩ := (EncryptionService.hash_isOk metadata r.wallets).mpr hhashable
  obtain ⟨tx₅, h₅, hdraft₅⟩ := Transaction.exists_change hdraft₄ (.hash (some hash)) (clock 4)
  have hcontent₅ : tx₅.content = { tx₄.content with hash := some hash } :=
    (Transaction.change_frame h₅).2.2
  rw [hcontent] at hcontent₅
  obtain ⟨tx₆, h₆⟩ : ∃ tx₆, tx₅.proceed (clock 5) (clock 6) = .ok tx₆ := by
    refine ⟨_, (Transaction.proceed_draft_ok hdraft₅).mpr ⟨?_, ?_, ?_, ?_, rfl⟩⟩
    · obtain ⟨s, -, hs, -⟩ := hsender
      rw [show tx₅.sender = tx.sender from congrArg Transaction.Content.sender hcontent₅, hs]
      rfl
    · rwa [show tx₅.recipient = tx.recipient from
        congrArg Transaction.Content.recipient hcontent₅]
    · rwa [show tx₅.amount = tx.amount from congrArg Transaction.Content.amount hcontent₅]
    · rw [show tx₅.fee = some _ from congrArg Transaction.Content.fee hcontent₅]
      rfl
  refine ⟨r.save tx₆, ?_⟩
  simp only [WalletApplicationService.updateWithFeeEstimate, hsum, h₁, h₂, h₃, h₄, hhash, h₅, h₆,
    bind, Except.bind, pure, Except.pure]

/-- `estimateTransactionIfNeeded(_:)` takes no token that it does not know, and adds `Int`s. -/
theorem record_transfer (hready : (transfer r id clock).Ready lib metadata) :
    (∃ done r' tx', WalletApplicationService.estimateTransactionIfNeeded lib metadata r id
        (fun _ => some response) clock = .ok (done, r') ∧ r'.find id = some tx' ∧
      Recorded response tx') ↔
    Known r.tokens response.gasToken ∧ GasFits response ∧ NonceFits response := by
  obtain ⟨⟨tx, hfind, hneeded⟩, htokens, response₀, r₀, hready⟩ := hready
  have hneeded : tx.feeEstimate.isNone = true ∨
      (tx.type = .connectBrowserExtension ∧ tx.status = .draft) := by
    rwa [Option.isNone_iff_eq_none]
  have hid := Repositories.id_of_find hfind
  unfold WalletApplicationService.estimateTransactionIfNeeded at hready ⊢
  rw [hfind] at hready ⊢
  simp only [unwrap_some, bind, Except.bind, if_pos hneeded] at hready ⊢
  -- what does not depend on the answer
  obtain ⟨recipient, hrecipient, hready⟩ := bind_ok.mp hready
  obtain ⟨sender, hsender, hready⟩ := bind_ok.mp hready
  obtain ⟨w, hw, hready⟩ := bind_ok.mp hready
  obtain ⟨request, hrequest, hready⟩ := bind_ok.mp hready
  obtain ⟨token₀, -, hready⟩ := bind_ok.mp hready
  obtain ⟨nonce₀, -, hready⟩ := bind_ok.mp hready
  obtain ⟨r₁, hupdate, -⟩ := bind_ok.mp hready
  obtain ⟨haddressed, -⟩ := updateWithFeeEstimate_ok hupdate
  simp only [hrecipient, hsender, hw, hrequest]
  constructor
  · rintro ⟨done, r', tx', h, -⟩
    obtain ⟨token, htoken, h⟩ := bind_ok.mp h
    obtain ⟨nonce, hnonce, h⟩ := bind_ok.mp h
    obtain ⟨r₂, hupdate, h⟩ := bind_ok.mp h
    obtain ⟨-, hgas, -⟩ := updateWithFeeEstimate_ok hupdate
    exact ⟨(token_isSome _).mp ⟨token, unwrap_ok.mp htoken⟩, hgas, nextNonce_ok.mp ⟨_, hnonce⟩⟩
  · rintro ⟨hknown, hgas, hnonce⟩
    obtain ⟨token, htoken⟩ := (token_isSome _).mpr hknown
    obtain ⟨nonce, hnonce⟩ := nextNonce_ok.mpr hnonce
    obtain ⟨htokenID, hmem⟩ := token_some htoken
    have hwf : token.address.WellFormed := by
      rcases hmem with rfl | hmem
      · exact Address.wellFormed_of_digits (by decide)
      · exact htokens token hmem
    obtain ⟨r', hupdate⟩ := exists_updateWithFeeEstimate metadata r clock
      ⟨response.safeTxGas, response.dataGas, response.operationalGas, ⟨response.gasPrice, token⟩⟩
      haddressed hgas hwf (bigInt_stringOfInt lib nonce)
    obtain ⟨-, -, tx', hfound, hestimate, hfee⟩ := updateWithFeeEstimate_ok hupdate
    rw [hid] at hfound
    refine ⟨some (), r', tx', ?_, hfound, _, hestimate, rfl, rfl, rfl, rfl, htokenID, hfee⟩
    simp only [htoken, hnonce, hupdate, unwrap_some, pure, Except.pure]

end Transfer

/-- In each of the four places, an answer is recorded as it is, without a trap, if and only if the
place knows its token and the sums it makes fit `Int`. -/
theorem record_faithful (path : EstimationPath) (response : EstimateTransactionResponse)
    (hready : path.Ready lib metadata) :
    (∃ tx, path.record lib metadata response = .ok tx ∧ Recorded response tx) ↔
      path.Faithful response := by
  cases path with
  | transfer r id clock =>
      refine Iff.trans ⟨?_, ?_⟩ (record_transfer hready)
      · rintro ⟨tx, h, hrecorded⟩
        obtain ⟨⟨done, r'⟩, h, hfind⟩ := bind_ok.mp h
        exact ⟨done, r', tx, h, unwrap_ok.mp hfind, hrecorded⟩
      · rintro ⟨done, r', tx, h, hfind, hrecorded⟩
        exact ⟨tx, bind_ok.mpr ⟨(done, r'), h, unwrap_ok.mpr hfind⟩, hrecorded⟩
  | recovery b tokens now =>
      refine Iff.trans ⟨?_, ?_⟩ (record_recovery hready tokens now)
      · rintro ⟨tx, h, hrecorded⟩
        obtain ⟨b', hfees, htx⟩ := bind_ok.mp h
        rw [← Except.ok.inj htx] at hrecorded
        exact ⟨b', hfees, hrecorded⟩
      · rintro ⟨b', h, hrecorded⟩
        exact ⟨b'.transaction, bind_ok.mpr ⟨b', h, rfl⟩, hrecorded⟩
  | browserExtension r id clock =>
      refine Iff.trans ⟨?_, ?_⟩ (record_browserExtension hready)
      · rintro ⟨tx, h, hrecorded⟩
        obtain ⟨⟨fee, r'⟩, h, hfind⟩ := bind_ok.mp h
        exact ⟨fee, r', tx, h, unwrap_ok.mp hfind, hrecorded⟩
      · rintro ⟨fee, r', tx, h, hfind, hrecorded⟩
        exact ⟨tx, bind_ok.mpr ⟨(fee, r'), h, unwrap_ok.mpr hfind⟩, hrecorded⟩
  | recoveryPhrase tx clock => exact record_recoveryPhrase hready clock

/-- The draft for a new recovery phrase. -/
def phraseDraft : Transaction :=
  { id := ['p'], type := .replaceRecoveryPhrase, walletID := ['w']
    accountID := ⟨Token.Ether.id, ['w']⟩, sender := some (Address.ofNat 100)
    recipient := some (Address.ofNat 7), amount := some (.ether 0), operation := some .delegateCall }

/-- An answer that charges in the token at an address. -/
def charging (gasToken : TokenID) (safeTxGas : Int) : EstimateTransactionResponse :=
  ⟨safeTxGas, 2, 3, 4, some 5, gasToken⟩

theorem record_faithful_ether :
    ∃ tx, (recoveryPhrase phraseDraft fun _ => 0).record reference EncryptionService.noMetadata
        (charging Token.Ether.id 1) = .ok tx ∧ Recorded (charging Token.Ether.id 1) tx := by
  refine (record_faithful (recoveryPhrase phraseDraft fun _ => 0) (charging Token.Ether.id 1)
    (show phraseDraft.status = .draft from rfl)).mpr ⟨rfl, ?_, ?_⟩
  · show isInt (1 + 2) = true
    decide
  · intro nonce h
    obtain rfl := Option.some.inj h
    decide

/-- The relay charges in another token, and Ether is recorded; with the largest `Int` for the gas
there is a trap. -/
theorem not_recorded_recoveryPhrase :
    (∃ tx, (recoveryPhrase phraseDraft fun _ => 0).record reference EncryptionService.noMetadata
        (charging Address.two.value 1) = .ok tx ∧ ¬Recorded (charging Address.two.value 1) tx) ∧
      (recoveryPhrase phraseDraft fun _ => 0).record reference EncryptionService.noMetadata
        (charging Token.Ether.id (2 ^ 63 - 1)) = .error .overflow := by
  refine ⟨?_, by decide⟩
  have heval : ((recoveryPhrase phraseDraft fun _ => 0).record reference
      EncryptionService.noMetadata (charging Address.two.value 1)).toOption.any (fun tx =>
        tx.feeEstimate.all fun e => e.gasPrice.token.address.value ≠ Address.two.value) = true := by
    decide
  obtain ⟨tx, htx, hne⟩ := exists_ok_of_any heval
  refine ⟨tx, htx, ?_⟩
  rintro ⟨estimate, hestimate, -, -, -, -, htoken, -⟩
  rw [hestimate] at hne
  exact of_decide_eq_true hne htoken

end EstimationPath

end MultisigWallet
