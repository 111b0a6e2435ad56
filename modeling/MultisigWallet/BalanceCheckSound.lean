import MultisigWallet.BrowserExtensionSound
import MultisigWallet.EstimationSound
import MultisigWallet.PostProcessingSound
import MultisigWallet.RecoverySound

/-!
# MultisigWallet.BalanceCheckSound

Three services check that a fee can be paid. The account they look at was chosen when the
transaction was made, and the token that is charged when it was estimated: the check says what
it should when the two tokens are the same.
-/

namespace MultisigWallet

namespace Transaction

/-! ### What stays of a transaction -/

variable {tx tx' : Transaction} {ops : List Op}

/-- The calls that may change the fee or its estimate. -/
def Op.estimates : Op → Bool
  | change (.fee _) _ => true
  | change (.feeEstimate _) _ => true
  | reset => true
  | _ => false

theorem step_account {op : Op} (h : tx.step op = .ok tx') :
    tx'.accountID = tx.accountID ∧ tx'.walletID = tx.walletID := by
  cases step_effect h with
  | change edit now hs => cases edit <;> exact ⟨rfl, rfl⟩
  | _ => exact ⟨rfl, rfl⟩

theorem step_fee {op : Op} (h : tx.step op = .ok tx') (hop : op.estimates = false) :
    tx'.feeEstimate = tx.feeEstimate ∧ tx'.fee = tx.fee := by
  cases step_effect h with
  | change edit now hs =>
      cases edit with
      | fee fee => cases hop
      | feeEstimate estimate => cases hop
      | _ => exact ⟨rfl, rfl⟩
  | reset hs => cases hop
  | _ => exact ⟨rfl, rfl⟩

/-- The account is fixed when the transaction is made. -/
theorem run_account (h : Transition.run step tx ops = .ok tx') :
    tx'.accountID = tx.accountID ∧ tx'.walletID = tx.walletID := by
  have hframe := Transition.run_frame_of_allowed (fun t => (t.accountID, t.walletID))
    (fun _ _ _ _ hstep => Prod.ext (step_account hstep).1 (step_account hstep).2)
    (Transition.allowed_true tx ops) h
  exact ⟨congrArg Prod.fst hframe, congrArg Prod.snd hframe⟩

theorem run_fee (h : Transition.run step tx ops = .ok tx')
    (hops : ∀ op ∈ ops, op.estimates = false) :
    tx'.feeEstimate = tx.feeEstimate ∧ tx'.fee = tx.fee := by
  have hframe := Transition.run_frame_of_allowed (fun t => (t.feeEstimate, t.fee))
    (fun _ _ _ hop hstep => Prod.ext (step_fee hstep hop).1 (step_fee hstep hop).2)
    (Transition.allowed_of_forall fun op hop _ => hops op hop) h
  exact ⟨congrArg Prod.fst hframe, congrArg Prod.snd hframe⟩

end Transaction

/-! ### The checks -/

/-- Where the balance is checked. -/
inductive BalanceCheck
  | recovery (d : Device)
  | recoveryPhrase (r : Repositories) (id : TransactionID)
  | browserExtension (flow : Flow) (r : Repositories) (id : TransactionID)

namespace BalanceCheck

/-- The transaction that is checked. -/
def transaction : BalanceCheck → Option Transaction
  | recovery d => d.transaction
  | recoveryPhrase r id => r.find id
  | browserExtension _ r id => r.find id

/-- The check passes. -/
def Passes (accounts : Accounts) : BalanceCheck → Prop
  | recovery d => RecoveryDomainService.isRecoveryTransactionReadyToSubmit d accounts = true
  | recoveryPhrase r id =>
      WalletSettingsDomainService.isRecoveryPhraseTransactionReadyToStart r id accounts = .ok true
  | browserExtension flow r id =>
      ReplaceBrowserExtensionDomainService.validate flow r id accounts = .ok (.ok ())

/-- What a check looks at besides the balance: `validate(transactionID:)` adds `Int`s, and asks
for the right owners. -/
def Passable (response : EstimateTransactionResponse) : BalanceCheck → Prop
  | recovery _ => True
  | recoveryPhrase _ _ => True
  | browserExtension flow r _ =>
      isInt (response.dataGas + response.safeTxGas) = true ∧
        isInt (response.dataGas + response.safeTxGas + response.operationalGas) = true ∧
        ReplaceBrowserExtensionDomainService.validateOwners flow r = .ok (.ok ())

/-- The wallet has the fee in the token that it is charged in. -/
def Pays (accounts : Accounts) (check : BalanceCheck) : Prop :=
  ∃ tx estimate, check.transaction = some tx ∧ tx.feeEstimate = some estimate ∧
    estimate.gasPrice.amount * (estimate.gas + estimate.dataGas + estimate.operationalGas) ≤
      ((accounts ⟨estimate.gasPrice.token.id, tx.walletID⟩).join).getD 0

/-- No balance is negative. -/
def NonNegative (accounts : Accounts) : Prop :=
  ∀ account balance, accounts account = some (some balance) → 0 ≤ balance

variable {accounts : Accounts} {check : BalanceCheck} {tx : Transaction}
  {token : Token} {response : EstimateTransactionResponse}

theorem balance_nonneg (h : NonNegative accounts) (account : AccountID) :
    0 ≤ ((accounts account).join).getD 0 := by
  cases hbalance : accounts account with
  | none => exact le_refl 0
  | some balance =>
      cases balance with
      | none => exact le_refl 0
      | some balance => exact h account balance hbalance

/-! ### What a check passes for -/

/-- The estimation in a token. -/
def estimateIn (token : Token) (response : EstimateTransactionResponse) : TransactionFeeEstimate :=
  ⟨response.safeTxGas, response.dataGas, response.operationalGas, ⟨response.gasPrice, token⟩⟩

/-- What has to be paid. -/
def required (response : EstimateTransactionResponse) : Int :=
  response.gasPrice * (response.safeTxGas + response.dataGas + response.operationalGas)

theorem displayed (token : Token) (response : EstimateTransactionResponse) :
    (estimateIn token response).totalDisplayedToUser.amount = required response :=
  rfl

/-- The relay's answer, as it is found in what is checked. -/
structure Estimates (response : EstimateTransactionResponse) (check : BalanceCheck)
    (tx : Transaction) (token : Token) : Prop where
  stored : check.transaction = some tx
  estimated : tx.feeEstimate = some (estimateIn token response)
  fee : tx.fee.isSome = true

theorem Estimates.pays_iff (h : Estimates response check tx token) :
    check.Pays accounts ↔
      required response ≤ ((accounts ⟨token.id, tx.walletID⟩).join).getD 0 := by
  constructor
  · rintro ⟨tx', estimate, hstored, hestimated, hpays⟩
    obtain rfl := Option.some.inj (h.stored.symm.trans hstored)
    obtain rfl := Option.some.inj (h.estimated.symm.trans hestimated)
    exact hpays
  · intro hpays
    exact ⟨tx, _, h.stored, h.estimated, hpays⟩

theorem passes_recovery_iff {d : Device} (h : Estimates response (recovery d) tx token) :
    (recovery d).Passes accounts ↔
      ∃ balance, accounts tx.accountID = some (some balance) ∧ required response ≤ balance := by
  have hstored : d.transaction = some tx := h.stored
  rw [← displayed token]
  unfold Passes RecoveryDomainService.isRecoveryTransactionReadyToSubmit
  simp only [hstored, h.estimated]
  cases hbalance : accounts tx.accountID with
  | none => simp
  | some balance => cases balance <;> simp

theorem passes_recoveryPhrase_iff {r : Repositories} {id : TransactionID}
    (h : Estimates response (recoveryPhrase r id) tx token) :
    (recoveryPhrase r id).Passes accounts ↔
      ∃ balance, accounts tx.accountID = some (some balance) ∧ required response ≤ balance := by
  have hstored : r.find id = some tx := h.stored
  rw [← displayed token]
  unfold Passes WalletSettingsDomainService.isRecoveryPhraseTransactionReadyToStart
  simp only [hstored, h.estimated, unwrap_some, bind, Except.bind, pure, Except.pure]
  cases hbalance : accounts tx.accountID with
  | none => simp
  | some balance => cases balance <;> simp

theorem resultingBalance_ok {r : Repositories} {id : TransactionID} (hstored : r.find id = some tx)
    {amount resulting : TokenAmount}
    (h : ReplaceBrowserExtensionDomainService.resultingBalance r id accounts amount =
      .ok resulting) :
    ∃ balance, accounts tx.accountID = some balance ∧
      resulting.amount = balance.getD 0 + amount.amount := by
  obtain ⟨sum, hsum, h⟩ := bind_ok.mp h
  obtain ⟨tx', htx', hsum⟩ := bind_ok.mp hsum
  obtain ⟨balance, hbalance, hsum⟩ := bind_ok.mp hsum
  have hsame := ReplaceBrowserExtensionDomainService.transaction_ok.mp htx'
  obtain rfl := Option.some.inj (hstored.symm.trans hsame)
  rw [← Except.ok.inj h, ← Except.ok.inj hsum]
  exact ⟨balance, unwrap_ok.mp hbalance, rfl⟩

theorem exists_resultingBalance {r : Repositories} {id : TransactionID} {balance : Option Int}
    (hstored : r.find id = some tx) (hbalance : accounts tx.accountID = some balance)
    (amount : TokenAmount) :
    ∃ resulting, ReplaceBrowserExtensionDomainService.resultingBalance r id accounts amount =
      .ok resulting := by
  simp only [ReplaceBrowserExtensionDomainService.resultingBalance,
    ReplaceBrowserExtensionDomainService.accountBalance,
    ReplaceBrowserExtensionDomainService.transaction, hstored, hbalance, unwrap_some, bind,
    Except.bind, pure, Except.pure]
  exact ⟨_, rfl⟩

theorem nonneg_iff (response : EstimateTransactionResponse) (balance : Int) :
    balance + -(response.dataGas + response.safeTxGas + response.operationalGas) *
      response.gasPrice ≥ 0 ↔ required response ≤ balance := by
  have hcomm : (response.dataGas + response.safeTxGas + response.operationalGas) *
      response.gasPrice = required response := by
    unfold required
    ring
  rw [neg_mul, hcomm]
  omega

/-- An account without a balance is empty here, and a missing account is a trap. -/
theorem passes_browserExtension_iff {flow : Flow} {r : Repositories} {id : TransactionID}
    (h : Estimates response (browserExtension flow r id) tx token) :
    (browserExtension flow r id).Passes accounts ↔
      (browserExtension flow r id).Passable response ∧
        ∃ balance, accounts tx.accountID = some balance ∧ required response ≤ balance.getD 0 := by
  have hstored : r.find id = some tx := h.stored
  have hfind := ReplaceBrowserExtensionDomainService.transaction_ok.mpr hstored
  show ReplaceBrowserExtensionDomainService.validate flow r id accounts = .ok (.ok ()) ↔ _
  constructor
  · intro hpasses
    obtain ⟨tx', htx', hpasses⟩ := bind_ok.mp hpasses
    obtain rfl := Except.ok.inj (hfind.symm.trans htx')
    obtain ⟨-, -, hpasses⟩ := bind_ok.mp hpasses
    obtain ⟨-, -, hpasses⟩ := bind_ok.mp hpasses
    obtain ⟨estimate', hestimate', hpasses⟩ := bind_ok.mp hpasses
    obtain rfl := Option.some.inj (h.estimated.symm.trans (unwrap_ok.mp hestimate'))
    obtain ⟨gas₁, hgas₁, hpasses⟩ := bind_ok.mp hpasses
    obtain ⟨gas₂, hgas₂, hpasses⟩ := bind_ok.mp hpasses
    obtain ⟨resulting, hresulting, hpasses⟩ := bind_ok.mp hpasses
    obtain ⟨balance, hbalance, hamount⟩ := resultingBalance_ok hstored hresulting
    obtain ⟨hfits₁, hsum₁⟩ := addInt_ok.mp hgas₁
    rw [← hsum₁] at hgas₂
    obtain ⟨hfits₂, hsum₂⟩ := addInt_ok.mp hgas₂
    split at hpasses
    · rename_i hnonneg
      rw [hamount, ← hsum₂] at hnonneg
      replace hnonneg := (nonneg_iff response _).mp hnonneg
      exact ⟨⟨hfits₁, hfits₂, hpasses⟩, balance, hbalance, hnonneg⟩
    · exact nomatch Except.ok.inj hpasses
  · rintro ⟨⟨hfits₁, hfits₂, howners⟩, balance, hbalance, hle⟩
    obtain ⟨resulting, hresulting⟩ := exists_resultingBalance hstored hbalance
      ⟨-(response.dataGas + response.safeTxGas + response.operationalGas) * response.gasPrice,
        token⟩
    obtain ⟨balance', hbalance', hamount⟩ := resultingBalance_ok hstored hresulting
    obtain rfl := Option.some.inj (hbalance.symm.trans hbalance')
    have hnonneg : resulting.amount ≥ 0 := by
      rw [hamount, nonneg_iff]
      exact hle
    simp only [ReplaceBrowserExtensionDomainService.validate, hfind, h.fee, h.estimated,
      estimateIn, precondition, Option.isSome_some, unwrap_some,
      addInt_ok.mpr ⟨hfits₁, rfl⟩, addInt_ok.mpr ⟨hfits₂, rfl⟩, hresulting, if_pos hnonneg,
      howners, bind, Except.bind, if_true]

/-! ### From the making to the check -/

/-- The token that two of the services record for an answer. -/
def chargedToken (tokens : List Token) (response : EstimateTransactionResponse) : TokenID :=
  ((tokens.find? (·.id = response.gasToken)).getD Token.Ether).id

section Flows

variable (lib : ThirdParty) (metadata : SafeContractMetadata)

/-- `Checked lib metadata response made charged check`: the transaction of `check` was made with
the account of the token `made`, and an answer of the relay was then recorded in the token
`charged`. Before the estimation anything may happen to the transaction, and to the wallets and
the token list; after it, anything that leaves the estimation alone. -/
inductive Checked (response : EstimateTransactionResponse) :
    TokenID → TokenID → BalanceCheck → Prop
  /-- `RecoveryTransactionBuilder`. -/
  | recovery {w : Wallet} {multiSend : Address} {id : TransactionID}
      {answers : Option (Data × Data)} {d₁ d₂ : Date} {made b b' : RecoveryTransactionBuilder}
      {before after : List Transaction.Op} {tokens : List Token} {tx : Transaction} {d : Device}
      (hmade : RecoveryTransactionBuilder.pullData lib w multiSend id answers d₁ = .ok made)
      (hbefore : Transition.run Transaction.step made.transaction before = .ok b.transaction)
      (hrecord : RecoveryDomainService.calculateFees b tokens response d₂ = .ok b')
      (hafter : Transition.run Transaction.step b'.transaction after = .ok tx)
      (hkept : ∀ op ∈ after, op.estimates = false) (hstored : d.transaction = some tx) :
      Checked response Token.Ether.id (chargedToken tokens response) (recovery d)
  /-- `WalletSettingsDomainService`. -/
  | recoveryPhrase {r₀ r₁ r : Repositories} {id : TransactionID} {c₁ c₂ : Clock}
      {made tx₁ tx₂ tx : Transaction} {before after : List Transaction.Op}
      (hmade : WalletSettingsDomainService.createReplaceRecoveryPhraseTransaction lib metadata r₀ id
        c₁ = .ok r₁)
      (hfound : r₁.find id = some made)
      (hbefore : Transition.run Transaction.step made before = .ok tx₁)
      (hrecord : WalletSettingsDomainService.changeFees tx₁ response c₂ = .ok tx₂)
      (hafter : Transition.run Transaction.step tx₂ after = .ok tx)
      (hkept : ∀ op ∈ after, op.estimates = false) (hstored : r.find id = some tx) :
      Checked response Token.Ether.id Token.Ether.id (recoveryPhrase r id)
  /-- `ReplaceBrowserExtensionDomainService`. -/
  | browserExtension {flow : Flow} {r₀ r₁ r₂ r₃ r : Repositories} {id : TransactionID}
      {c₁ c₂ : Clock} {made tx₂ tx₃ tx : Transaction} {before after : List Transaction.Op}
      {w : Wallet} {fee : Except Thrown TokenAmount} (hselected : r₀.selected = some w)
      (hmade : ReplaceBrowserExtensionDomainService.createTransaction flow r₀ id c₁ = .ok r₁)
      (hfound : r₁.find id = some made)
      (hbefore : Transition.run Transaction.step made before = .ok tx₂)
      (hestimated : r₂.find id = some tx₂)
      (hrecord : ReplaceBrowserExtensionDomainService.estimateNetworkFee lib r₂ id
        (fun _ => some response) c₂ = .ok (fee, r₃))
      (hrecorded : r₃.find id = some tx₃)
      (hafter : Transition.run Transaction.step tx₃ after = .ok tx)
      (hkept : ∀ op ∈ after, op.estimates = false) (hstored : r.find id = some tx) :
      Checked response ((w.feePaymentTokenAddress.map (·.value)).getD Token.Ether.id)
        (chargedToken r₂.tokens response) (browserExtension flow r id)

end Flows

variable {lib : ThirdParty} {metadata : SafeContractMetadata} {made charged : TokenID}

/-- The balance that is checked is that of a token in the wallet of the transaction. -/
def OnAccount (token : TokenID) (tx : Transaction) : Prop := tx.accountID = ⟨token, tx.walletID⟩

theorem OnAccount.run {tx' : Transaction} {ops : List Transaction.Op} (h : OnAccount made tx)
    (hrun : Transition.run Transaction.step tx ops = .ok tx') : OnAccount made tx' := by
  obtain ⟨haccount, hwallet⟩ := Transaction.run_account hrun
  unfold OnAccount
  rw [haccount, hwallet]
  exact h

theorem OnAccount.change {tx' : Transaction} {edit : Transaction.Edit} {now : Date}
    (h : OnAccount made tx) (hchange : tx.change edit now = .ok tx') : OnAccount made tx' := by
  obtain ⟨haccount, hwallet⟩ :=
    Transaction.step_account (show tx.step (.change edit now) = .ok tx' from hchange)
  unfold OnAccount
  rw [haccount, hwallet]
  exact h

theorem onAccount_pullData {w : Wallet} {multiSend : Address} {id : TransactionID}
    {answers : Option (Data × Data)} {now : Date} {b : RecoveryTransactionBuilder}
    (h : RecoveryTransactionBuilder.pullData lib w multiSend id answers now = .ok b) :
    OnAccount Token.Ether.id b.transaction := by
  obtain ⟨address, -, h⟩ := bind_ok.mp h
  obtain ⟨tx₁, h₁, h⟩ := bind_ok.mp h
  obtain ⟨tx₂, h₂, h⟩ := bind_ok.mp h
  obtain ⟨w₁, -, h⟩ := bind_ok.mp h
  have hnew : OnAccount Token.Ether.id
      (Transaction.new id .walletRecovery w.id ⟨Token.Ether.id, w.id⟩ now now) :=
    rfl
  have hmade : OnAccount Token.Ether.id tx₂ := (hnew.change h₁).change h₂
  split at h
  · exact nomatch h
  · obtain ⟨owners, -, h⟩ := bind_ok.mp h
    obtain ⟨w₂, -, h⟩ := bind_ok.mp h
    obtain ⟨threshold, -, h⟩ := bind_ok.mp h
    obtain ⟨list, -, h⟩ := bind_ok.mp h
    obtain rfl := Except.ok.inj h
    exact hmade

theorem onAccount_createReplaceRecoveryPhraseTransaction {r r' : Repositories}
    {id : TransactionID} {clock : Clock}
    (h : WalletSettingsDomainService.createReplaceRecoveryPhraseTransaction lib metadata r id
      clock = .ok r') (hfound : r'.find id = some tx) :
    OnAccount Token.Ether.id tx := by
  obtain ⟨w, -, h⟩ := bind_ok.mp h
  obtain ⟨sender, -, h⟩ := bind_ok.mp h
  obtain ⟨tx₁, h₁, h⟩ := bind_ok.mp h
  obtain ⟨recipient, -, h⟩ := bind_ok.mp h
  obtain ⟨tx₂, h₂, h⟩ := bind_ok.mp h
  obtain ⟨tx₃, h₃, h⟩ := bind_ok.mp h
  obtain ⟨tx₄, h₄, h⟩ := bind_ok.mp h
  obtain rfl := Except.ok.inj h
  have hnew : OnAccount Token.Ether.id
      (Transaction.new id .replaceRecoveryPhrase w.id ⟨Token.Ether.id, w.id⟩ (clock 0) (clock 1)) :=
    rfl
  have hid : tx₄.id = id := by
    rw [(Transaction.change_frame h₄).1, (Transaction.change_frame h₃).1,
      (Transaction.change_frame h₂).1, (Transaction.change_frame h₁).1]
    rfl
  rw [← hid, Repositories.find_save] at hfound
  rw [← Option.some.inj hfound]
  exact (((hnew.change h₁).change h₂).change h₃).change h₄

theorem onAccount_createTransaction {flow : Flow} {r r' : Repositories} {id : TransactionID}
    {clock : Clock} {w : Wallet} (hselected : r.selected = some w)
    (h : ReplaceBrowserExtensionDomainService.createTransaction flow r id clock = .ok r')
    (hfound : r'.find id = some tx) :
    OnAccount ((w.feePaymentTokenAddress.map (·.value)).getD Token.Ether.id) tx := by
  obtain ⟨w', hw', h⟩ := bind_ok.mp h
  obtain rfl := Option.some.inj (hselected.symm.trans (unwrap_ok.mp hw'))
  obtain ⟨tx₁, h₁, h⟩ := bind_ok.mp h
  obtain ⟨address, -, h⟩ := bind_ok.mp h
  obtain ⟨tx₂, h₂, h⟩ := bind_ok.mp h
  obtain rfl := Except.ok.inj h
  have hid : tx₂.id = id := by
    rw [(Transaction.change_frame h₂).1, (Transaction.change_frame h₁).1]
    rfl
  rw [← hid, Repositories.find_save] at hfound
  rw [← Option.some.inj hfound]
  have hnew : OnAccount ((w.feePaymentTokenAddress.map (·.value)).getD Token.Ether.id)
      (Transaction.new id (ReplaceBrowserExtensionDomainService.transactionType flow) w.id
        ⟨(w.feePaymentTokenAddress.map (·.value)).getD Token.Ether.id, w.id⟩ (clock 0) (clock 1)) :=
    rfl
  exact (hnew.change h₁).change h₂

/-- What the three services record. -/
theorem changes_estimated {tx₁ tx₂ tx₃ : Transaction} {fee : TokenAmount} {nonce : Option Str}
    {d₁ d₂ d₃ : Date} (h : OnAccount made tx) (h₁ : tx.change (.fee (some fee)) d₁ = .ok tx₁)
    (h₂ : tx₁.change (.feeEstimate (some (estimateIn token response))) d₂ = .ok tx₂)
    (h₃ : tx₂.change (.nonce nonce) d₃ = .ok tx₃) :
    OnAccount made tx₃ ∧ tx₃.feeEstimate = some (estimateIn token response) ∧
      tx₃.fee.isSome = true := by
  obtain ⟨-, hestimate, hfee⟩ := EstimationPath.changes_ok h₁ h₂ h₃
  exact ⟨((h.change h₁).change h₂).change h₃, hestimate, by rw [hfee]; rfl⟩

/-- And what is left of it when it is checked. -/
theorem Estimates.of_run {tx' : Transaction} {ops : List Transaction.Op}
    (h : OnAccount made tx ∧ tx.feeEstimate = some (estimateIn token response) ∧
      tx.fee.isSome = true)
    (hrun : Transition.run Transaction.step tx ops = .ok tx')
    (hkept : ∀ op ∈ ops, op.estimates = false) (check : BalanceCheck)
    (hstored : check.transaction = some tx') :
    Estimates response check tx' token ∧ OnAccount made tx' := by
  obtain ⟨haccount, hestimated, hfee⟩ := h
  obtain ⟨hestimated', hfee'⟩ := Transaction.run_fee hrun hkept
  exact ⟨⟨hstored, hestimated'.trans hestimated, hfee' ▸ hfee⟩, haccount.run hrun⟩

/-- `estimateNetworkFee(for:)`, when the relay answers. -/
theorem estimateNetworkFee_ok {r r' : Repositories} {id : TransactionID} {clock : Clock}
    {fee : Except Thrown TokenAmount} (hfound : r.find id = some tx)
    (h : ReplaceBrowserExtensionDomainService.estimateNetworkFee lib r id (fun _ => some response)
      clock = .ok (fee, r')) :
    ∃ token tx₁ tx₂ tx₃ nonce, token.id = chargedToken r.tokens response ∧
      tx.change (.fee (some (estimateIn token response).totalSubmittedToBlockchain)) (clock 0) =
        .ok tx₁ ∧
      tx₁.change (.feeEstimate (some (estimateIn token response))) (clock 1) = .ok tx₂ ∧
      tx₂.change (.nonce nonce) (clock 2) = .ok tx₃ ∧ r'.find id = some tx₃ := by
  obtain ⟨tx₀, h₀, h⟩ := bind_ok.mp h
  obtain ⟨request, -, h⟩ := bind_ok.mp h
  obtain ⟨tx₁, h₁, h⟩ := bind_ok.mp h
  obtain ⟨tx₂, h₂, h⟩ := bind_ok.mp h
  obtain ⟨nonce, -, h⟩ := bind_ok.mp h
  obtain ⟨tx₃, h₃, h⟩ := bind_ok.mp h
  obtain ⟨-, rfl⟩ := Prod.mk.inj (Except.ok.inj h)
  have hsame := ReplaceBrowserExtensionDomainService.transaction_ok.mp h₀
  obtain rfl := Option.some.inj (hfound.symm.trans hsame)
  refine ⟨_, tx₁, tx₂, tx₃, _, rfl, h₁, h₂, h₃, ?_⟩
  rw [← Repositories.id_of_find hfound, ← (EstimationPath.changes_ok h₁ h₂ h₃).1]
  exact Repositories.find_save r tx₃

theorem Checked.estimates (h : Checked lib metadata response made charged check) :
    ∃ tx token, Estimates response check tx token ∧ OnAccount made tx ∧ token.id = charged := by
  cases h with
  | recovery hmade hbefore hrecord hafter hkept hstored =>
      obtain ⟨tx₁, h₁, hrecord⟩ := bind_ok.mp hrecord
      obtain ⟨tx₂, h₂, hrecord⟩ := bind_ok.mp hrecord
      obtain ⟨nonce, -, hrecord⟩ := bind_ok.mp hrecord
      obtain ⟨tx₃, h₃, hrecord⟩ := bind_ok.mp hrecord
      obtain rfl := Except.ok.inj hrecord
      have hrecorded := changes_estimated ((onAccount_pullData hmade).run hbefore) h₁ h₂ h₃
      obtain ⟨hestimates, haccount⟩ :=
        Estimates.of_run hrecorded hafter hkept (BalanceCheck.recovery _) hstored
      exact ⟨_, _, hestimates, haccount, rfl⟩
  | recoveryPhrase hmade hfound hbefore hrecord hafter hkept hstored =>
      obtain ⟨⟨fee, estimate, nonce⟩, hfees, hrecord⟩ := bind_ok.mp hrecord
      obtain ⟨gas, -, hfees⟩ := bind_ok.mp hfees
      obtain ⟨nonce', -, hfees⟩ := bind_ok.mp hfees
      obtain ⟨-, hfees⟩ := Prod.mk.inj (Except.ok.inj hfees)
      obtain ⟨rfl, -⟩ := Prod.mk.inj hfees
      obtain ⟨tx₁, h₁, hrecord⟩ := bind_ok.mp hrecord
      obtain ⟨tx₂, h₂, h₃⟩ := bind_ok.mp hrecord
      have hmade := onAccount_createReplaceRecoveryPhraseTransaction hmade hfound
      have hrecorded := changes_estimated (hmade.run hbefore) h₁ h₂ h₃
      obtain ⟨hestimates, haccount⟩ :=
        Estimates.of_run hrecorded hafter hkept (BalanceCheck.recoveryPhrase _ _) hstored
      exact ⟨_, _, hestimates, haccount, rfl⟩
  | browserExtension hselected hmade hfound hbefore hestimated hrecord hrecorded hafter hkept
      hstored =>
      obtain ⟨token, tx₁, tx₂, tx₃, nonce, htoken, h₁, h₂, h₃, hfound₃⟩ :=
        estimateNetworkFee_ok hestimated hrecord
      obtain rfl := Option.some.inj (hfound₃.symm.trans hrecorded)
      have hmade := onAccount_createTransaction hselected hmade hfound
      have hrecorded := changes_estimated (hmade.run hbefore) h₁ h₂ h₃
      obtain ⟨hestimates, haccount⟩ :=
        Estimates.of_run hrecorded hafter hkept (BalanceCheck.browserExtension _ _ _) hstored
      exact ⟨_, _, hestimates, haccount, htoken⟩

/-! ### What a pass is worth -/

/-- The balance that was asked for, and what else the check looks at. -/
theorem required_le_of_passes (h : Estimates response check tx token)
    (hpasses : check.Passes accounts) :
    check.Passable response ∧ required response ≤ ((accounts tx.accountID).join).getD 0 := by
  cases check with
  | recovery d =>
      obtain ⟨balance, hbalance, hle⟩ := (passes_recovery_iff h).mp hpasses
      rw [hbalance]
      exact ⟨trivial, hle⟩
  | recoveryPhrase r id =>
      obtain ⟨balance, hbalance, hle⟩ := (passes_recoveryPhrase_iff h).mp hpasses
      rw [hbalance]
      exact ⟨trivial, hle⟩
  | browserExtension flow r id =>
      obtain ⟨hpassable, balance, hbalance, hle⟩ := (passes_browserExtension_iff h).mp hpasses
      rw [hbalance]
      exact ⟨hpassable, hle⟩

theorem passes_of_balance (h : Estimates response check tx token)
    (hpassable : check.Passable response)
    (hbalance : accounts tx.accountID = some (some (required response))) :
    check.Passes accounts := by
  cases check with
  | recovery d => exact (passes_recovery_iff h).mpr ⟨_, hbalance, le_rfl⟩
  | recoveryPhrase r id => exact (passes_recoveryPhrase_iff h).mpr ⟨_, hbalance, le_rfl⟩
  | browserExtension flow r id =>
      exact (passes_browserExtension_iff h).mpr ⟨hpassable, _, hbalance, le_rfl⟩

/-- A check that passes means that the fee can be paid, whatever the balances, if and only if the
token that is charged is the token of the account that the transaction was made with; or there is
nothing to pay, or the check cannot pass. -/
theorem passes_pays_iff (h : Checked lib metadata response made charged check) :
    (∀ accounts, NonNegative accounts → check.Passes accounts → check.Pays accounts) ↔
      charged = made ∨ required response ≤ 0 ∨ ¬check.Passable response := by
  obtain ⟨tx, token, hestimates, haccount, rfl⟩ := h.estimates
  constructor
  · intro hpays
    by_contra hnone
    rw [not_or, not_or, not_le, not_not] at hnone
    obtain ⟨htoken, hpositive, hpassable⟩ := hnone
    -- the only account is the one that is looked at, with just enough
    let accounts : Accounts := fun account =>
      if account = tx.accountID then some (some (required response)) else none
    have hnonneg : NonNegative accounts := by
      intro account balance hbalance
      by_cases hchecked : account = tx.accountID
      · simp only [accounts, if_pos hchecked, Option.some.injEq] at hbalance
        omega
      · simp only [accounts, if_neg hchecked, reduceCtorEq] at hbalance
    have hbalance : accounts tx.accountID = some (some (required response)) := if_pos rfl
    have hle := hestimates.pays_iff.mp
      (hpays accounts hnonneg (passes_of_balance hestimates hpassable hbalance))
    have hother : (⟨token.id, tx.walletID⟩ : AccountID) ≠ tx.accountID := by
      intro hsame
      rw [haccount] at hsame
      exact htoken (congrArg AccountID.tokenID hsame)
    simp only [accounts, if_neg hother, Option.join_none, Option.getD_none] at hle
    omega
  · intro hcases accounts hnonneg hpasses
    obtain ⟨hpassable, hle⟩ := required_le_of_passes hestimates hpasses
    rw [hestimates.pays_iff]
    rcases hcases with htoken | hnothing | himpassable
    · rwa [haccount, ← htoken] at hle
    · exact hnothing.trans (balance_nonneg hnonneg _)
    · exact absurd hpassable himpassable

/-! ### The services are checked -/

open Transaction in
theorem run_changes {tx₁ tx₂ tx₃ : Transaction} {e₁ e₂ e₃ : Edit} {d₁ d₂ d₃ : Date}
    (h₁ : tx.change e₁ d₁ = .ok tx₁) (h₂ : tx₁.change e₂ d₂ = .ok tx₂)
    (h₃ : tx₂.change e₃ d₃ = .ok tx₃) :
    Transition.run step tx [.change e₁ d₁, .change e₂ d₂, .change e₃ d₃] = .ok tx₃ :=
  Transition.run_cons_ok.mpr ⟨tx₁, h₁, Transition.run_cons_ok.mpr ⟨tx₂, h₂,
    Transition.run_cons_ok.mpr ⟨tx₃, h₃, rfl⟩⟩⟩

theorem buildTransactionData_run {b b' : RecoveryTransactionBuilder} {datas : List Data}
    {now : Date} (h : b.buildTransactionData lib datas now = .ok b') :
    ∃ ops, Transition.run Transaction.step b.transaction ops = .ok b'.transaction := by
  obtain ⟨address, -, h⟩ := bind_ok.mp h
  split at h
  · obtain ⟨tx₁, h₁, h⟩ := bind_ok.mp h
    obtain ⟨tx₂, h₂, h⟩ := bind_ok.mp h
    obtain ⟨tx₃, h₃, h⟩ := bind_ok.mp h
    obtain rfl := Except.ok.inj h
    exact ⟨_, run_changes h₁ h₂ h₃⟩
  · obtain ⟨tx₁, h₁, h⟩ := bind_ok.mp h
    obtain ⟨tx₂, h₂, h⟩ := bind_ok.mp h
    obtain ⟨tx₃, h₃, h⟩ := bind_ok.mp h
    obtain rfl := Except.ok.inj h
    exact ⟨_, run_changes h₁ h₂ h₃⟩
  · obtain ⟨multiSend, -, h⟩ := bind_ok.mp h
    obtain ⟨tx₁, h₁, h⟩ := bind_ok.mp h
    obtain ⟨tx₂, h₂, h⟩ := bind_ok.mp h
    obtain ⟨tx₃, h₃, h⟩ := bind_ok.mp h
    obtain rfl := Except.ok.inj h
    exact ⟨_, run_changes h₁ h₂ h₃⟩

theorem signWith_run {b b' : RecoveryTransactionBuilder} {d : Device} {role : OwnerRole}
    {now : Date} (h : RecoveryDomainService.signWith lib metadata b d role now = .ok b') :
    ∃ signature, b.transaction.step (.addSignature signature now) = .ok b'.transaction := by
  obtain ⟨owner, -, h⟩ := bind_ok.mp h
  obtain ⟨privateKey, -, h⟩ := bind_ok.mp h
  obtain ⟨signature, -, h⟩ := bind_ok.mp h
  obtain ⟨tx₁, h₁, h⟩ := bind_ok.mp h
  obtain rfl := Except.ok.inj h
  exact ⟨_, h₁⟩

/-- Sealing and signing. -/
theorem sign_run {b b₁ b₂ : RecoveryTransactionBuilder} {stored : Wallet} {d : Device} {now : Date}
    (hseal : RecoveryDomainService.sealTransaction lib metadata b stored now = .ok b₁)
    (hsign : RecoveryDomainService.sign lib metadata b₁ d now = .ok b₂) :
    ∃ ops, Transition.run Transaction.step b.transaction ops = .ok b₂.transaction ∧
      ∀ op ∈ ops, op.estimates = false := by
  obtain ⟨hash, -, hseal⟩ := bind_ok.mp hseal
  obtain ⟨tx₁, h₁, hseal⟩ := bind_ok.mp hseal
  obtain ⟨tx₂, h₂, hseal⟩ := bind_ok.mp hseal
  obtain rfl := Except.ok.inj hseal
  obtain ⟨b₃, h₃, hsign⟩ := bind_ok.mp hsign
  obtain ⟨s₃, h₃⟩ := signWith_run h₃
  split at hsign
  · obtain ⟨s₄, h₄⟩ := signWith_run hsign
    refine ⟨[.change (.hash (some hash)) now, .proceed now now, .addSignature s₃ now,
      .addSignature s₄ now], ?_, by simp [Transaction.Op.estimates]⟩
    exact Transition.run_cons_ok.mpr ⟨tx₁, h₁, Transition.run_cons_ok.mpr ⟨tx₂, h₂,
      Transition.run_cons_ok.mpr ⟨_, h₃, Transition.run_cons_ok.mpr ⟨_, h₄, rfl⟩⟩⟩⟩
  · obtain rfl := Except.ok.inj hsign
    refine ⟨[.change (.hash (some hash)) now, .proceed now now, .addSignature s₃ now], ?_,
      by simp [Transaction.Op.estimates]⟩
    exact Transition.run_cons_ok.mpr ⟨tx₁, h₁, Transition.run_cons_ok.mpr ⟨tx₂, h₂,
      Transition.run_cons_ok.mpr ⟨_, h₃, rfl⟩⟩⟩

/-- The transaction that `RecoveryTransactionBuilder.main()` saves. -/
theorem Checked.of_build {d d' : Device} {tokens : List Token} {id : TransactionID}
    {answers : ContractAnswers} {now : Date} {b : RecoveryTransactionBuilder}
    (h : RecoveryDomainService.build lib metadata d tokens id answers now = .ok (some b))
    (hstored : d'.transaction = some b.transaction) :
    ∃ response, Checked lib metadata response Token.Ether.id (chargedToken tokens response)
      (.recovery d') := by
  obtain ⟨pulled, hmade, h⟩ := bind_ok.mp h
  split at h
  · obtain ⟨built, hbuilt, h⟩ := bind_ok.mp h
    obtain ⟨⟨datas, b₁⟩, hcalls, hbuilt⟩ := bind_ok.mp hbuilt
    obtain ⟨before, hbefore⟩ := buildTransactionData_run hbuilt
    rw [(RecoveryTransactionBuilder.callsData_frame hcalls).2.2.transaction] at hbefore
    obtain ⟨response, -, h⟩ := bind_ok.mp h
    split at h
    · exact nomatch Except.ok.inj h
    · rename_i response
      obtain ⟨b₂, hrecord, h⟩ := bind_ok.mp h
      obtain ⟨b₃, hseal, h⟩ := bind_ok.mp h
      obtain ⟨b₄, hsign, h⟩ := bind_ok.mp h
      obtain rfl := Option.some.inj (Except.ok.inj h)
      obtain ⟨after, hafter, hkept⟩ := sign_run hseal hsign
      exact ⟨response, .recovery hmade hbefore hrecord hafter hkept hstored⟩
  · exact nomatch Except.ok.inj h

/-- The transaction that `create()` and `estimate(transaction:)` save. -/
theorem Checked.of_estimate {flow : Flow} {r₀ r₁ r r₂ r₃ : Repositories} {id : TransactionID}
    {answer : Option Data} {c₁ c₂ c₃ : Clock} {w : Wallet} {fee : Except Thrown TokenAmount}
    (hselected : r₀.selected = some w)
    (hmade : ReplaceBrowserExtensionDomainService.createTransaction flow r₀ id c₁ = .ok r₁)
    (hsame : r.find id = r₁.find id)
    (hdummy : ReplaceBrowserExtensionDomainService.addDummyData lib flow r id answer c₂ = .ok r₂)
    (hrecord : ReplaceBrowserExtensionDomainService.estimateNetworkFee lib r₂ id
      (fun _ => some response) c₃ = .ok (fee, r₃)) :
    Checked lib metadata response ((w.feePaymentTokenAddress.map (·.value)).getD Token.Ether.id)
      (chargedToken r.tokens response) (.browserExtension flow r₃ id) := by
  obtain ⟨made, hfound, hdummy⟩ := bind_ok.mp hdummy
  obtain ⟨address, -, hdummy⟩ := bind_ok.mp hdummy
  obtain ⟨tx₁, h₁, hdummy⟩ := bind_ok.mp hdummy
  obtain ⟨tx₂, h₂, hdummy⟩ := bind_ok.mp hdummy
  obtain ⟨data, -, hdummy⟩ := bind_ok.mp hdummy
  obtain ⟨tx₃, h₃, hdummy⟩ := bind_ok.mp hdummy
  obtain rfl := Except.ok.inj hdummy
  have hfound : r.find id = some made :=
    ReplaceBrowserExtensionDomainService.transaction_ok.mp hfound
  have hdummied : (r.save tx₃).find id = some tx₃ := by
    rw [← Repositories.id_of_find hfound, ← (Transaction.change_frame h₁).1,
      ← (Transaction.change_frame h₂).1, ← (Transaction.change_frame h₃).1]
    exact Repositories.find_save r tx₃
  obtain ⟨-, -, -, tx₄, -, -, -, -, -, hrecorded⟩ := estimateNetworkFee_ok hdummied hrecord
  show Checked lib metadata response _ (chargedToken (r.save tx₃).tokens response) _
  exact .browserExtension hselected hmade (hsame ▸ hfound) (run_changes h₁ h₂ h₃) hdummied hrecord
    hrecorded (Transition.run_nil tx₄) (by simp) hrecorded

/-- The wallet pays in Ether when the transaction is made. -/
def payingInEther : Repositories where
  transactions := []
  wallets := [ReplaceBrowserExtensionDomainService.readyWallet]
  selectedWallet := some ['w']
  tokens := [⟨['T'], ['T'], 18, .two, []⟩]
  externallyOwnedAccounts := []

/-- And in the token afterwards. -/
def payingInToken (r : Repositories) : Repositories :=
  { r with
    wallets := [{ ReplaceBrowserExtensionDomainService.readyWallet with
      feePaymentTokenAddress := some .two }] }

/-- There is Ether, and nothing else. -/
def etherOnly (account : AccountID) : Option (Option Int) :=
  if account = ⟨Token.Ether.id, ['w']⟩ then some (some 1000) else some (some 0)

/-- The making, a change of the fee token, and the estimation. -/
def replaced (change : Repositories → Repositories) (gasToken : TokenID) :
    Except Trap Repositories := do
  let r ← ReplaceBrowserExtensionDomainService.createTransaction .replace payingInEther ['t']
    fun _ => 0
  let r ← ReplaceBrowserExtensionDomainService.addDummyData reference .replace (change r) ['t'] none
    fun _ => 0
  let (_, r) ← ReplaceBrowserExtensionDomainService.estimateNetworkFee reference r ['t']
    (fun _ => some (EstimationPath.charging gasToken 1)) fun _ => 0
  return r

theorem nonNegative_etherOnly : NonNegative etherOnly := by
  intro account balance h
  unfold etherOnly at h
  split at h
  · obtain rfl := Option.some.inj (Option.some.inj h)
    decide
  · obtain rfl := Option.some.inj (Option.some.inj h)
    decide

/-- What the two runs below come to. -/
theorem checked_replaced {change : Repositories → Repositories} {gasToken : TokenID}
    {r : Repositories} (hchange : ∀ r, (change r).find ['t'] = r.find ['t'])
    (h : replaced change gasToken = .ok r) :
    ∃ r', Checked reference EncryptionService.noMetadata (EstimationPath.charging gasToken 1)
      Token.Ether.id (chargedToken (change r').tokens (EstimationPath.charging gasToken 1))
      (.browserExtension .replace r ['t']) ∧ r'.tokens = payingInEther.tokens := by
  obtain ⟨r₁, hmade, h⟩ := bind_ok.mp h
  obtain ⟨r₂, hdummy, h⟩ := bind_ok.mp h
  obtain ⟨⟨fee, r₃⟩, hrecord, h⟩ := bind_ok.mp h
  obtain rfl := Except.ok.inj h
  refine ⟨r₁, .of_estimate rfl hmade (hchange r₁) hdummy hrecord, ?_⟩
  obtain ⟨w, -, hmade⟩ := bind_ok.mp hmade
  obtain ⟨tx₁, -, hmade⟩ := bind_ok.mp hmade
  obtain ⟨address, -, hmade⟩ := bind_ok.mp hmade
  obtain ⟨tx₂, -, hmade⟩ := bind_ok.mp hmade
  rw [← Except.ok.inj hmade]
  rfl

/-- Ether is charged, and the account in Ether is looked at. -/
theorem passes_pays_replaced :
    ∃ r, replaced (fun r => r) Token.Ether.id = .ok r ∧
      (browserExtension .replace r ['t']).Passes etherOnly ∧
      (browserExtension .replace r ['t']).Pays etherOnly := by
  have heval : ((replaced (fun r => r) Token.Ether.id).toOption.any fun r =>
      ReplaceBrowserExtensionDomainService.validate .replace r ['t'] etherOnly = .ok (.ok ())) =
        true := by
    decide +kernel
  obtain ⟨r, hr, hvalid⟩ := exists_ok_of_any heval
  have hvalid := of_decide_eq_true hvalid
  have hpasses : (browserExtension .replace r ['t']).Passes etherOnly := hvalid
  obtain ⟨r', hchecked, htokens⟩ := checked_replaced (fun _ => rfl) hr
  have htoken : chargedToken r'.tokens (EstimationPath.charging Token.Ether.id 1) =
      Token.Ether.id := by
    rw [htokens]
    decide
  exact ⟨r, hr, hpasses,
    (passes_pays_iff hchecked).mpr (.inl htoken) etherOnly nonNegative_etherOnly hpasses⟩

/-- The fee token is changed before the estimation: the check finds the Ether that the fee is not
charged in. -/
theorem not_pays_replaced :
    ∃ r, replaced payingInToken Address.two.value = .ok r ∧ NonNegative etherOnly ∧
      (browserExtension .replace r ['t']).Passes etherOnly ∧
      ¬(browserExtension .replace r ['t']).Pays etherOnly := by
  have heval : ((replaced payingInToken Address.two.value).toOption.any fun r =>
      ReplaceBrowserExtensionDomainService.validate .replace r ['t'] etherOnly = .ok (.ok ()) ∧
        (r.find ['t']).any fun tx => tx.feeEstimate.any fun estimate =>
          ¬estimate.gasPrice.amount *
            (estimate.gas + estimate.dataGas + estimate.operationalGas) ≤
              ((etherOnly ⟨estimate.gasPrice.token.id, tx.walletID⟩).join).getD 0) = true := by
    decide +kernel
  obtain ⟨r, hr, hall⟩ := exists_ok_of_any heval
  obtain ⟨hpasses, hany⟩ := of_decide_eq_true hall
  refine ⟨r, hr, nonNegative_etherOnly, hpasses, ?_⟩
  rintro ⟨tx, estimate, htx, hestimate, hpays⟩
  have htx : r.find ['t'] = some tx := htx
  rw [htx, Option.any_some, hestimate, Option.any_some] at hany
  exact of_decide_eq_true hany hpays

end BalanceCheck

end MultisigWallet
