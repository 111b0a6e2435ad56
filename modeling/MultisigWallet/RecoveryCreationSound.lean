import MultisigWallet.RecoveryCreationCalls

/-!
# MultisigWallet.RecoveryCreationSound

When building the recovery transaction fails cleanly. The builder goes on after a failed query
to checks that read fields the query was to fill, and after a failed update of the balances as if
nothing had happened; once the configuration is supported, it reads the owners to replace, the
relay's answer and the stored keys without looking. `Creatable` collects what has to be there, and
each stage of the builder is shown to need exactly its part.
-/

namespace MultisigWallet

open RecoveryTransactionBuilder RecoveryDomainService

variable {lib : ThirdParty} {metadata : SafeContractMetadata} {d : Device} {tokens : List Token}
  {id : TransactionID} {answers : CreationAnswers} {now : Date} {w : Wallet}

/-! ### Estimating -/

section Finish

variable {b b' : RecoveryTransactionBuilder} {address : Address} {tx : Transaction}
  {response : EstimateTransactionResponse}

theorem dataEthHex_ethData (lib : ThirdParty) {d : Data} (hd : d ≠ []) :
    (lib.dataEthHex (hexMark ++ Bytes.toHex d)).isEmpty = false := by
  have hlength := lib.length_dataEthHex (s := Bytes.toHex d) fun c hc =>
    Bytes.lowerHex_subset_hexDigits c (Bytes.mem_lowerHex_of_mem_toHex c hc)
  rw [Bytes.length_toHex] at hlength
  have hpos := List.length_pos_iff.mpr hd
  rw [lib.dataEthHex_mark, List.isEmpty_eq_false_iff, ← List.length_pos_iff]
  omega

/-- The request can be made, so the answer is the relay's. -/
theorem estimate_drafted (lib : ThirdParty) (h : Drafted address b.transaction) (stored : Wallet)
    (estimation : Option EstimateTransactionResponse) :
    estimate lib b stored (fun _ => estimation) = .ok estimation := by
  obtain ⟨recipient, hrecipient, hwf⟩ := h.recipient
  obtain ⟨operation, hoperation⟩ := h.operation
  obtain ⟨formatted, hformatted, -⟩ := EncryptionService.address_wellFormed lib hwf
  have hto := ethTo_of_ether h.opened.amount hrecipient
  have hvalue : b.transaction.ethValue = 0 := by
    simp [Transaction.ethValue, Transaction.isERC20Transfer, h.opened.amount, TokenAmount.ether]
  have hnumber : (lib.bigInt (stringOfInt 0) 10).isSome = true := by
    rw [show stringOfInt 0 = Nat.toDigits 10 0 from rfl, lib.bigInt_decimal]
    rfl
  have hdata : (b.transaction.ethData.isEmpty ||
      !(lib.dataEthHex b.transaction.ethData).isEmpty) = true := by
    unfold Transaction.ethData
    cases hd : b.transaction.data with
    | none => rfl
    | some d =>
        have hne : d ≠ [] := fun hnil => h.data (hnil ▸ hd)
        show ((hexMark ++ Bytes.toHex d).isEmpty ||
          !(lib.dataEthHex (hexMark ++ Bytes.toHex d)).isEmpty) = true
        rw [dataEthHex_ethData lib hne]
        rfl
  unfold estimate
  rw [hto, hformatted, h.opened.sender, hoperation, hvalue]
  refine bind_ok.mpr ⟨formatted, rfl, bind_ok.mpr ⟨address, rfl, bind_ok.mpr ⟨operation, rfl,
    bind_ok.mpr ⟨_, bind_ok.mpr ⟨(), precondition_ok.mpr hnumber,
      bind_ok.mpr ⟨(), precondition_ok.mpr hdata, rfl⟩⟩, rfl⟩⟩⟩⟩

/-! ### The fees and the hash -/

/-- The token the relay asks the fee in, as far as the token list has it. -/
def feeToken (tokens : List Token) (response : EstimateTransactionResponse) : Token :=
  (tokens.find? (·.id = response.gasToken)).getD Token.Ether

/-- The transaction with its fees. -/
structure Priced (address : Address) (token : Token) (tx : Transaction) : Prop where
  drafted : Drafted address tx
  fee : tx.fee.isSome = true
  feeEstimate : ∃ e, tx.feeEstimate = some e ∧ e.gasPrice.token = token
  nonce : ∃ n, tx.nonce = some (stringOfInt n)

theorem calculateFees_isOk (h : Drafted address b.transaction) :
    ((∃ b', calculateFees b tokens response now = .ok b') ↔ ∃ n, response.nextNonce = .ok n) ∧
      ∀ b', calculateFees b tokens response now = .ok b' → b'.wallet = b.wallet ∧
        b'.oldScheme = b.oldScheme ∧ Priced address (feeToken tokens response) b'.transaction := by
  have hcalculate : ∀ n, response.nextNonce = .ok n → ∃ b',
      calculateFees b tokens response now = .ok b' ∧
        Priced address (feeToken tokens response) b'.transaction := by
    intro n hn
    simp only [calculateFees, Transaction.change_draft, h.opened.status, Transaction.assign,
      Transaction.timestampUpdated, hn, bind, Except.bind, pure, Except.pure]
    exact ⟨_, rfl, ⟨⟨rfl, h.opened.sender, h.opened.amount⟩, h.recipient, h.operation, h.data⟩, rfl,
      ⟨_, rfl, rfl⟩, ⟨n, rfl⟩⟩
  have hnonce : ∀ b', calculateFees b tokens response now = .ok b' →
      ∃ n, response.nextNonce = .ok n := by
    intro b' hb'
    obtain ⟨_, -, hb'⟩ := bind_ok.mp hb'
    obtain ⟨_, -, hb'⟩ := bind_ok.mp hb'
    obtain ⟨n, hn, -⟩ := bind_ok.mp hb'
    exact ⟨n, hn⟩
  refine ⟨⟨fun hb' => ?_, fun hn => ?_⟩, fun b' hb' => ?_⟩
  · obtain ⟨b', hb'⟩ := hb'
    exact hnonce b' hb'
  · obtain ⟨n, hn⟩ := hn
    obtain ⟨b', hb', -⟩ := hcalculate n hn
    exact ⟨b', hb'⟩
  · obtain ⟨n, hn⟩ := hnonce b' hb'
    obtain ⟨b'', hb'', hpriced⟩ := hcalculate n hn
    obtain rfl := Except.ok.inj (hb'.symm.trans hb'')
    obtain ⟨hwallet, hold⟩ := calculateFees_same hb'
    exact ⟨hwallet, hold, hpriced⟩

open EncryptionService (Hashable hash_isOk dataOfAddress dataOfAddress_eq)

theorem Priced.hashable_iff {token : Token} (h : Priced address token tx)
    (hwf : address.WellFormed) :
    Hashable lib tx ↔ ∃ data, dataOfAddress lib token.address = .ok data := by
  obtain ⟨e, he, rfl⟩ := h.feeEstimate
  constructor
  · intro hhash
    obtain ⟨e', data, he', hdata⟩ := hhash.gasToken
    obtain rfl := Option.some.inj (he.symm.trans he')
    exact ⟨data, hdata⟩
  · intro hdata
    obtain ⟨data, hdata⟩ := hdata
    obtain ⟨recipient, hrecipient, hrecipientWf⟩ := h.drafted.recipient
    obtain ⟨n, hn⟩ := h.nonce
    refine ⟨⟨address, _, h.drafted.opened.sender, dataOfAddress_eq lib hwf⟩, ?_,
      h.drafted.operation, ⟨e, data, he, hdata⟩, ⟨_, n, hn, bigInt_stringOfInt lib n⟩⟩
    rw [ethTo_of_ether h.drafted.opened.amount hrecipient]
    exact ⟨_, dataOfAddress_eq lib hrecipientWf⟩

/-- What can be signed. -/
structure Sealed (lib : ThirdParty) (tx : Transaction) : Prop where
  status : tx.status = .signing
  hashable : Hashable lib tx

theorem sealTransaction_isOk {token : Token} {stored : Wallet} (metadata : SafeContractMetadata)
    (now : Date) (h : Priced address token b.transaction) (hwf : address.WellFormed) :
    ((∃ b', sealTransaction lib metadata b stored now = .ok b') ↔
        ∃ data, dataOfAddress lib token.address = .ok data) ∧
      ∀ b', sealTransaction lib metadata b stored now = .ok b' →
        b'.wallet = b.wallet ∧ b'.oldScheme = b.oldScheme ∧ Sealed lib b'.transaction := by
  have hdraft := h.drafted.opened.status
  obtain ⟨recipient, hrecipient, -⟩ := h.drafted.recipient
  -- once there is a hash, a draft with its fees can proceed
  have hseal : ∀ hash, EncryptionService.hash lib metadata [stored] b.transaction = .ok hash →
      ∃ b', sealTransaction lib metadata b stored now = .ok b' ∧ b'.wallet = b.wallet ∧
        b'.oldScheme = b.oldScheme ∧ Sealed lib b'.transaction := by
    intro hash hhash
    have hhashable := (hash_isOk metadata [stored]).mp ⟨hash, hhash⟩
    obtain ⟨tx, htx⟩ : ∃ tx, b.transaction.change (.hash (some hash)) now = .ok tx :=
      ⟨_, Transaction.change_draft hdraft _ _⟩
    obtain ⟨-, hstatus, hcontent⟩ := Transaction.change_frame htx
    have hsender : tx.sender = b.transaction.sender := congrArg Transaction.Content.sender hcontent
    have hto : tx.recipient = b.transaction.recipient :=
      congrArg Transaction.Content.recipient hcontent
    have hamount : tx.amount = b.transaction.amount := congrArg Transaction.Content.amount hcontent
    have hfee : tx.fee = b.transaction.fee := congrArg Transaction.Content.fee hcontent
    have hproceed := (@Transaction.proceed_draft_ok tx _ now now (hstatus.trans hdraft)).mpr
      ⟨by rw [hsender, h.drafted.opened.sender]; rfl, by rw [hto, hrecipient]; rfl,
        by rw [hamount, h.drafted.opened.amount]; rfl, hfee ▸ h.fee, rfl⟩
    exact ⟨_, bind_ok.mpr ⟨hash, hhash, bind_ok.mpr ⟨tx, htx, bind_ok.mpr ⟨_, hproceed, rfl⟩⟩⟩,
      rfl, rfl, rfl, hhashable.congr hsender hamount hto
        (congrArg Transaction.Content.operation hcontent)
        (congrArg Transaction.Content.feeEstimate hcontent)
        (congrArg Transaction.Content.nonce hcontent)⟩
  rw [← h.hashable_iff hwf, ← hash_isOk metadata [stored]]
  refine ⟨⟨fun hb' => ?_, fun hhash => ?_⟩, fun b' hb' => ?_⟩
  · obtain ⟨b', hb'⟩ := hb'
    obtain ⟨hash, hhash, -⟩ := bind_ok.mp hb'
    exact ⟨hash, hhash⟩
  · obtain ⟨hash, hhash⟩ := hhash
    obtain ⟨b', hb', -⟩ := hseal hash hhash
    exact ⟨b', hb'⟩
  · obtain ⟨hash, hhash, -⟩ := bind_ok.mp hb'
    obtain ⟨b'', hb'', hfacts⟩ := hseal hash hhash
    obtain rfl := Except.ok.inj (hb'.symm.trans hb'')
    exact hfacts

/-! ### The signatures -/

/-- The device has the key of the owner with `role`, and it signs. -/
def HasKey (lib : ThirdParty) (d : Device) (role : OwnerRole) : Prop :=
  ∃ o key, d.wallet.owner role = some o ∧ d.privateKey o.address = some key ∧
    ∀ hash, (lib.sign hash key).isSome = true

/-- Whether a key signs is up to the key. -/
def SignsByKey (lib : ThirdParty) : Prop :=
  ∀ key hash hash', (lib.sign hash key).isSome = true → (lib.sign hash' key).isSome = true

theorem signWith_isOk {role : OwnerRole} {c : List Address × Int} (metadata : SafeContractMetadata)
    (now : Date) (hsign : SignsByKey lib) (hrole : role ≠ .unknown) (h : Follows d.wallet c b)
    (hsealed : Sealed lib b.transaction) :
    ((∃ b', signWith lib metadata b d role now = .ok b') ↔ HasKey lib d role) ∧
      ∀ b', signWith lib metadata b d role now = .ok b' →
        Follows d.wallet c b' ∧ Sealed lib b'.transaction := by
  obtain ⟨hash, hhash⟩ := (hash_isOk metadata [d.wallet]).mpr hsealed.hashable
  refine ⟨⟨fun hb' => ?_, fun hkey => ?_⟩, fun b' hb' => ?_⟩
  · obtain ⟨b', hb'⟩ := hb'
    obtain ⟨o, ho, hb'⟩ := bind_ok.mp hb'
    obtain ⟨key, hkey, hb'⟩ := bind_ok.mp hb'
    obtain ⟨signature, hsignature, -⟩ := bind_ok.mp hb'
    obtain ⟨hash', -, hsigned⟩ := (EncryptionService.sign_ok metadata _).mp hsignature
    exact ⟨o, key, (h.owner role hrole).symm.trans (unwrap_ok.mp ho), unwrap_ok.mp hkey,
      fun hash => hsign key hash' hash (Option.isSome_iff_exists.mpr ⟨_, hsigned⟩)⟩
  · obtain ⟨o, key, ho, hkey, hsigns⟩ := hkey
    obtain ⟨signature, hsignature⟩ := Option.isSome_iff_exists.mp (hsigns hash)
    have hsigned := (EncryptionService.sign_ok metadata [d.wallet]).mpr ⟨hash, hhash, hsignature⟩
    exact ⟨_, bind_ok.mpr ⟨o, unwrap_ok.mpr ((h.owner role hrole).trans ho),
      bind_ok.mpr ⟨key, unwrap_ok.mpr hkey, bind_ok.mpr ⟨signature, hsigned,
      bind_ok.mpr ⟨_, Transaction.addSignature_ok.mpr ⟨.inr hsealed.status, rfl⟩, rfl⟩⟩⟩⟩⟩
  · obtain ⟨o, -, hb'⟩ := bind_ok.mp hb'
    obtain ⟨key, -, hb'⟩ := bind_ok.mp hb'
    obtain ⟨signature, -, hb'⟩ := bind_ok.mp hb'
    obtain ⟨tx, htx, hb'⟩ := bind_ok.mp hb'
    obtain rfl := Except.ok.inj hb'
    obtain ⟨-, rfl⟩ := Transaction.addSignature_ok.mp htx
    refine ⟨⟨h.owner, h.oldScheme⟩, ?_⟩
    show Sealed lib (if _ then _ else _)
    split
    · exact hsealed
    · exact ⟨hsealed.status, hsealed.hashable.congr rfl rfl rfl rfl rfl rfl⟩

theorem sign_isOk {c : List Address × Int} (metadata : SafeContractMetadata) (now : Date)
    (hsign : SignsByKey lib) (h : Follows d.wallet c b) (hsealed : Sealed lib b.transaction) :
    (∃ b', RecoveryDomainService.sign lib metadata b d now = .ok b') ↔
      HasKey lib d .paperWallet ∧ (c.2 = 2 → HasKey lib d .paperWalletDerived) := by
  obtain ⟨hfirst, hsigned⟩ :=
    @signWith_isOk lib d b .paperWallet c metadata now hsign (by decide) h hsealed
  have hsecond : ∀ b', signWith lib metadata b d .paperWallet now = .ok b' →
      ((∃ b'', (if b'.oldScheme.confirmations = 2 then
        signWith lib metadata b' d .paperWalletDerived now else pure b') = .ok b'') ↔
          (c.2 = 2 → HasKey lib d .paperWalletDerived)) := by
    intro b' hb'
    obtain ⟨hfollows, hsealed'⟩ := hsigned b' hb'
    rw [hfollows.oldScheme]
    by_cases hc : c.2 = 2
    · rw [if_pos hc, (signWith_isOk metadata now hsign (by decide) hfollows hsealed').1]
      exact ⟨fun hkey _ => hkey, fun hkey => hkey hc⟩
    · rw [if_neg hc]
      exact ⟨fun _ hc' => absurd hc' hc, fun _ => ⟨b', rfl⟩⟩
  rw [← hfirst]
  refine bind_isOk.trans ⟨fun hb' => ?_, fun hkeys => ?_⟩
  · obtain ⟨b', hb', hb''⟩ := hb'
    exact ⟨⟨b', hb'⟩, (hsecond b' hb').mp hb''⟩
  · obtain ⟨⟨b', hb'⟩, hkey⟩ := hkeys
    exact ⟨b', hb', (hsecond b' hb').mpr hkey⟩

/-! ### The whole builder -/

/-- What it takes to go on from the relay's answer. -/
structure Finishes (lib : ThirdParty) (d : Device) (tokens : List Token) (c : List Address × Int)
    (response : EstimateTransactionResponse) : Prop where
  nonce : ∃ n, response.nextNonce = .ok n
  gasToken : ∃ data, dataOfAddress lib (feeToken tokens response).address = .ok data
  key : HasKey lib d .paperWallet
  derivedKey : c.2 = 2 → HasKey lib d .paperWalletDerived

/-- The fees, the hash and the signatures. -/
theorem finish_isOk {c : List Address × Int} (metadata : SafeContractMetadata) (now : Date)
    (hsign : SignsByKey lib) (h : Follows d.wallet c b) (hdrafted : Drafted address b.transaction)
    (hwf : address.WellFormed) :
    (∃ b', (do
      let b ← calculateFees b tokens response now
      let b ← sealTransaction lib metadata b d.wallet now
      let b ← RecoveryDomainService.sign lib metadata b d now
      return some b) = .ok (some b')) ↔ Finishes lib d tokens c response := by
  obtain ⟨hfees, hpriced⟩ := @calculateFees_isOk tokens now b address response hdrafted
  constructor
  · intro hb
    obtain ⟨b', hb⟩ := hb
    obtain ⟨b₁, h₁, hb⟩ := bind_ok.mp hb
    obtain ⟨b₂, h₂, hb⟩ := bind_ok.mp hb
    obtain ⟨b₃, h₃, -⟩ := bind_ok.mp hb
    obtain ⟨hwallet₁, hold₁, hpriced₁⟩ := hpriced b₁ h₁
    obtain ⟨hseal, hsealed⟩ :=
      @sealTransaction_isOk lib b₁ address _ d.wallet metadata now hpriced₁ hwf
    obtain ⟨hwallet₂, hold₂, hsealed₂⟩ := hsealed b₂ h₂
    have hfollows := (h.of_eq hwallet₁ hold₁).of_eq hwallet₂ hold₂
    obtain ⟨hkey, hderived⟩ := (sign_isOk metadata now hsign hfollows hsealed₂).mp ⟨b₃, h₃⟩
    exact ⟨hfees.mp ⟨b₁, h₁⟩, hseal.mp ⟨b₂, h₂⟩, hkey, hderived⟩
  · intro hfinishes
    obtain ⟨b₁, h₁⟩ := hfees.mpr hfinishes.nonce
    obtain ⟨hwallet₁, hold₁, hpriced₁⟩ := hpriced b₁ h₁
    obtain ⟨hseal, hsealed⟩ :=
      @sealTransaction_isOk lib b₁ address _ d.wallet metadata now hpriced₁ hwf
    obtain ⟨b₂, h₂⟩ := hseal.mpr hfinishes.gasToken
    obtain ⟨hwallet₂, hold₂, hsealed₂⟩ := hsealed b₂ h₂
    have hfollows := (h.of_eq hwallet₁ hold₁).of_eq hwallet₂ hold₂
    obtain ⟨b₃, h₃⟩ := (sign_isOk metadata now hsign hfollows hsealed₂).mpr
      ⟨hfinishes.key, hfinishes.derivedKey⟩
    exact ⟨b₃, bind_ok.mpr ⟨b₁, h₁, bind_ok.mpr ⟨b₂, h₂, bind_ok.mpr ⟨b₃, h₃, rfl⟩⟩⟩⟩

/-- After the checks: the owners are replaced, and an answer is gone on from. -/
theorem Checked.complete_isOk {c : List Address × Int} (tokens : List Token)
    (estimation : Option EstimateTransactionResponse) (now : Date) (hsign : SignsByKey lib)
    (h : Checked metadata d.wallet address c b) (haddress : d.wallet.address = some address)
    (hwf : address.WellFormed) (hmulti : metadata.multiSendContractAddress.WellFormed) :
    ((∃ r, complete lib metadata b d tokens estimation now = .ok r) ↔ Replaces d.wallet c ∧
        ∀ response, estimation = some response → Finishes lib d tokens c response) ∧
      ∀ r, complete lib metadata b d tokens estimation now = .ok r →
        r.isSome = estimation.isSome := by
  obtain ⟨hbuild, hbuilt⟩ := h.buildData_isOk lib now haddress hwf hmulti
  -- what is left to do once the data is built
  have hnone : estimation = none → ∀ b', b.buildData lib now = .ok b' → ∀ r,
      complete lib metadata b d tokens estimation now = .ok r ↔ r = none := by
    intro hestimation b' hb' r
    unfold complete
    rw [hb']
    show (estimate lib b' d.wallet (fun _ => estimation) >>= _) = _ ↔ _
    rw [estimate_drafted lib (hbuilt b' hb').2, hestimation]
    exact ⟨fun heq => (Except.ok.inj heq).symm, fun heq => heq ▸ rfl⟩
  have hsome : ∀ response, estimation = some response → ∀ b', b.buildData lib now = .ok b' → ∀ r,
      complete lib metadata b d tokens estimation now = .ok r ↔
        (do
          let b ← calculateFees b' tokens response now
          let b ← sealTransaction lib metadata b d.wallet now
          let b ← RecoveryDomainService.sign lib metadata b d now
          return some b) = .ok r := by
    intro response hestimation b' hb' r
    unfold complete
    rw [hb']
    show (estimate lib b' d.wallet (fun _ => estimation) >>= _) = _ ↔ _
    rw [estimate_drafted lib (hbuilt b' hb').2, hestimation]
    rfl
  refine ⟨⟨fun hr => ?_, fun hready => ?_⟩, fun r hr => ?_⟩
  · obtain ⟨r, hr⟩ := hr
    obtain ⟨b', hb', -⟩ := bind_ok.mp hr
    refine ⟨hbuild.mp ⟨b', hb'⟩, ?_⟩
    intro response hestimation
    have hr := (hsome response hestimation b' hb' r).mp hr
    obtain ⟨b₁, h₁, hr'⟩ := bind_ok.mp hr
    obtain ⟨b₂, h₂, hr'⟩ := bind_ok.mp hr'
    obtain ⟨b₃, h₃, -⟩ := bind_ok.mp hr'
    exact (finish_isOk metadata now hsign (hbuilt b' hb').1 (hbuilt b' hb').2 hwf).mp
      ⟨b₃, bind_ok.mpr ⟨b₁, h₁, bind_ok.mpr ⟨b₂, h₂, bind_ok.mpr ⟨b₃, h₃, rfl⟩⟩⟩⟩
  · obtain ⟨b', hb'⟩ := hbuild.mpr hready.1
    cases estimation with
    | none => exact ⟨none, (hnone rfl b' hb' none).mpr rfl⟩
    | some response =>
        obtain ⟨b'', hb''⟩ := (finish_isOk metadata now hsign (hbuilt b' hb').1 (hbuilt b' hb').2
          hwf).mpr (hready.2 response rfl)
        exact ⟨some b'', (hsome response rfl b' hb' _).mpr hb''⟩
  · obtain ⟨b', hb', -⟩ := bind_ok.mp hr
    cases estimation with
    | none =>
        rw [(hnone rfl b' hb' r).mp hr]
        rfl
    | some response =>
        have hr := (hsome response rfl b' hb' r).mp hr
        obtain ⟨_, -, hr⟩ := bind_ok.mp hr
        obtain ⟨_, -, hr⟩ := bind_ok.mp hr
        obtain ⟨_, -, hr⟩ := bind_ok.mp hr
        obtain rfl := Except.ok.inj hr
        rfl

end Finish

/-! ### Failing cleanly -/

/-- What has to be there for the builder to get through: readable answers to both queries, and if
the configuration is supported, owners to replace and, once the relay answers, updated balances and
all that the estimation is read for. -/
def Creatable (lib : ThirdParty) (d : Device) (tokens : List Token) (answers : CreationAnswers) :
    Prop :=
  ∃ c, remoteConfiguration lib answers = some c ∧
    (Supported d.wallet c → Replaces d.wallet c ∧
      ∀ response, answers.estimate = some response →
        answers.balances ≠ none ∧ Finishes lib d tokens c response)

/-- The call returns; if something failed, it has posted an error and left nothing behind. -/
def FailsCleanly (lib : ThirdParty) (metadata : SafeContractMetadata) (d : Device)
    (tokens : List Token) (id : TransactionID) (answers : CreationAnswers) (now : Date) : Prop :=
  ∃ out, createRecoveryTransactionLogged lib metadata d tokens id answers now = .ok out ∧
    (Fails lib d.wallet answers → out.errors ≠ [] ∧ out.device.transaction = none ∧
      out.device.wallet = d.wallet ∧ out.published = false)

/-- Once the configuration is supported, `main()` returns when the builder gets through, and then
it has stored a transaction if and only if the relay has answered. -/
theorem main_isOk {address : Address} {c : List Address × Int}
    (hcan : d.wallet.state.canChangeOwners = true) (haddress : d.wallet.address = some address)
    (hwf : address.WellFormed) (hunknown : (d.wallet.owner .unknown).isSome = true)
    (hmulti : metadata.multiSendContractAddress.WellFormed) (hsign : SignsByKey lib)
    (hremote : remoteConfiguration lib answers = some c) (hc : Supported d.wallet c) :
    ((∃ out, main lib metadata d tokens id answers now = .ok out) ↔ Replaces d.wallet c ∧
        ∀ response, answers.estimate = some response → Finishes lib d tokens c response) ∧
      ∀ out, main lib metadata d tokens id answers now = .ok out →
        ∃ r, out = concluded d (BuilderFields.balanceErrors answers) r ∧
          r.isSome = answers.estimate.isSome := by
  obtain ⟨b, hchecked, hmain⟩ :=
    @main_supported lib metadata d tokens id answers now address c hcan haddress hunknown hremote hc
  obtain ⟨hcomplete, hanswered⟩ :=
    hchecked.complete_isOk tokens answers.estimate now hsign haddress hwf hmulti
  refine ⟨⟨fun hout => ?_, fun hready => ?_⟩, fun out hout => ?_⟩
  · obtain ⟨out, hout⟩ := hout
    obtain ⟨r, hr, -⟩ := (hmain out).mp hout
    exact hcomplete.mp ⟨r, hr⟩
  · obtain ⟨r, hr⟩ := hcomplete.mpr hready
    exact ⟨_, (hmain _).mpr ⟨r, hr, rfl⟩⟩
  · obtain ⟨r, hr, hconcluded⟩ := (hmain out).mp hout
    exact ⟨r, hconcluded, hanswered r hr⟩

/-- A supported configuration fails where a call does that `remoteConfiguration` is not about. -/
theorem fails_iff {c : List Address × Int} (hremote : remoteConfiguration lib answers = some c)
    (hc : Supported w c) :
    Fails lib w answers ↔ answers.balances = none ∨ answers.estimate = none := by
  obtain ⟨data, count, hdata, hcount, -, -⟩ := remoteConfiguration_eq_some.mp hremote
  constructor
  · intro h
    rcases h with h | h | h | h | ⟨c', hc', hunsupported⟩
    · exact absurd (hdata.symm.trans h) (Option.some_ne_none _)
    · exact absurd (hcount.symm.trans h) (Option.some_ne_none _)
    · exact .inl h
    · exact .inr h
    · obtain rfl := Option.some.inj (hremote.symm.trans hc')
      exact absurd hc hunsupported
  · intro h
    exact .inr (.inr (h.imp_right .inl))

namespace RecoveryDomainService

/-- Building the recovery transaction fails cleanly exactly when what it reads is there. -/
theorem createRecoveryTransaction_failsCleanly_iff {address : Address}
    (hstate : d.wallet.state = .recoveryDraft) (haddress : d.wallet.address = some address)
    (hwf : address.WellFormed) (hunknown : (d.wallet.owner .unknown).isSome = true)
    (hmulti : metadata.multiSendContractAddress.WellFormed) (hsign : SignsByKey lib) :
    FailsCleanly lib metadata d tokens id answers now ↔ Creatable lib d tokens answers := by
  have hcan : d.wallet.state.canChangeOwners = true := by
    rw [hstate]
    rfl
  unfold FailsCleanly Creatable createRecoveryTransactionLogged
  cases hremote : remoteConfiguration lib answers with
  | none =>
      constructor
      · intro h
        obtain ⟨out, hout, -⟩ := h
        exact absurd hout (main_unanswered hremote)
      · intro h
        obtain ⟨c, hc, -⟩ := h
        cases hc
  | some c =>
      by_cases hc : Supported d.wallet c
      · obtain ⟨hreturns, hconcluded⟩ :=
          @main_isOk lib metadata { d with transaction := none } tokens id answers now address c hcan
            haddress hwf hunknown hmulti hsign hremote hc
        constructor
        · intro h
          obtain ⟨out, hout, hclean⟩ := h
          obtain ⟨hreplaces, hfinishes⟩ := hreturns.mp ⟨out, hout⟩
          refine ⟨c, rfl, fun _ => ⟨hreplaces, fun response hresponse => ⟨fun hbalances => ?_, ?_⟩⟩⟩
          · -- the transaction is stored although the balances were not updated
            obtain ⟨r, rfl, hanswered⟩ := hconcluded out hout
            rw [hresponse] at hanswered
            obtain ⟨b, rfl⟩ := Option.isSome_iff_exists.mp hanswered
            obtain ⟨-, -, -, hpublished⟩ := hclean ((fails_iff hremote hc).mpr (.inl hbalances))
            cases hpublished
          · obtain ⟨hnonce, hgasToken, hkey, hderived⟩ := hfinishes response hresponse
            exact ⟨hnonce, hgasToken, hkey, hderived⟩
        · intro h
          obtain ⟨c', hc', hcreatable⟩ := h
          obtain rfl := Option.some.inj hc'
          obtain ⟨hreplaces, hanswered⟩ := hcreatable hc
          obtain ⟨out, hout⟩ := hreturns.mpr ⟨hreplaces, fun response hresponse => by
            obtain ⟨-, hnonce, hgasToken, hkey, hderived⟩ := hanswered response hresponse
            exact ⟨hnonce, hgasToken, hkey, hderived⟩⟩
          refine ⟨out, hout, fun hfails => ?_⟩
          obtain ⟨r, rfl, hsome⟩ := hconcluded out hout
          cases hestimate : answers.estimate with
          | none =>
              rw [hestimate] at hsome
              obtain rfl := Option.isNone_iff_eq_none.mp (by simpa using hsome)
              exact ⟨by simp [concluded], rfl, rfl, rfl⟩
          | some response =>
              have hbalances := (hanswered response hestimate).1
              rcases (fails_iff hremote hc).mp hfails with h | h
              · exact absurd h hbalances
              · exact absurd (hestimate.symm.trans h) (Option.some_ne_none _)
      · obtain ⟨error, hmain⟩ :=
          @main_unsupported lib metadata { d with transaction := none } tokens id answers now address
            c hcan haddress hunknown hremote hc
        constructor
        · intro _
          refine ⟨c, rfl, fun hc' => absurd hc' hc⟩
        · intro _
          exact ⟨_, hmain, fun _ => ⟨by simp, rfl, rfl, rfl⟩⟩

/-! ### A wallet that is recovered -/

/-- The packages, with a nonce of their own choice: a valid key signs whatever the hash. -/
def signingReference : ThirdParty :=
  { reference with
    sign := fun hash key =>
      if 0 < Bytes.toNat key ∧ Bytes.toNat key < Secp256k1.n then
        some ((Reference.sign hash key).getD [])
      else none }

theorem signingReference_sign {key hash : Data} :
    (signingReference.sign hash key).isSome = true ↔
      0 < Bytes.toNat key ∧ Bytes.toNat key < Secp256k1.n := by
  show (if _ then some _ else none : Option Data).isSome = true ↔ _
  split
  · rename_i h
    exact ⟨fun _ => h, fun _ => rfl⟩
  · rename_i h
    exact ⟨fun hsome => absurd hsome Bool.false_ne_true, fun h' => absurd h' h⟩

theorem signingReference_signsByKey : SignsByKey signingReference := fun _ _ _ h =>
  signingReference_sign.mpr (signingReference_sign.mp h)

open RecoveryTransactionBuilder (beforeTakeover)

/-- Every call is answered, and the contract is `m`. -/
def creationAnswers (m : OwnerManager) : CreationAnswers where
  owners := some m.getOwners
  threshold := some m.getThreshold
  balances := some ()
  estimate := some ⟨1, 1, 1, 1, none, Address.zero.value⟩

/-- A supported wallet with its keys and a relay that answers. -/
theorem createRecoveryTransaction_failsCleanly_answered :
    (∃ c, remoteConfiguration signingReference (creationAnswers beforeTakeover) = some c ∧
      Supported recoveringProcess.device.wallet c) ∧
    FailsCleanly signingReference EncryptionService.noMetadata recoveringProcess.device [] ['t']
      (creationAnswers beforeTakeover) 0 := by
  have hremote : remoteConfiguration signingReference (creationAnswers beforeTakeover) =
      some ([9, 13, 14].map Address.ofNat, 1) := by
    decide +kernel
  have hkey : ∀ n < 256, 0 < n → 0 < Bytes.toNat (Bytes.ofNat 32 n) ∧
      Bytes.toNat (Bytes.ofNat 32 n) < Secp256k1.n := by
    decide +kernel
  refine ⟨⟨_, hremote, ⟨by decide +kernel, by decide +kernel, by decide +kernel⟩⟩, ?_⟩
  refine (createRecoveryTransaction_failsCleanly_iff rfl rfl (Address.wellFormed_ofNat 100)
    (by decide +kernel) (Address.wellFormed_ofNat 0) signingReference_signsByKey).mpr
      ⟨_, hremote, fun _ => ⟨⟨by decide +kernel, by decide +kernel⟩, ?_⟩⟩
  intro response hresponse
  obtain rfl := Option.some.inj hresponse
  refine ⟨Option.some_ne_none _, ⟨0, rfl⟩, ⟨_, EncryptionService.dataOfAddress_eq _
    (Address.wellFormed_ofNat 0)⟩, ⟨⟨Address.ofNat 13, .paperWallet⟩, Bytes.ofNat 32 13,
      by decide +kernel, by decide +kernel, fun _ => signingReference_sign.mpr (hkey 13 ?_ ?_)⟩, ?_⟩
  · decide
  · decide
  · intro hc
    exact absurd hc (by decide)

/-- A contract that does not answer `getOwners()` stops the app. Balances that are not updated are
posted as an error, and the transaction is stored and the wallet ready all the same. -/
theorem not_failsCleanly_queries :
    (recoveringProcess.device.wallet.state = .recoveryDraft ∧
      recoveringProcess.device.wallet.address.isSome = true ∧
      (recoveringProcess.device.wallet.owner .unknown).isSome = true) ∧
    ¬ FailsCleanly reference EncryptionService.noMetadata recoveringProcess.device [] ['t']
      { creationAnswers beforeTakeover with owners := none } 0 ∧
    ¬ FailsCleanly reference EncryptionService.noMetadata recoveringProcess.device [] ['t']
      { creationAnswers beforeTakeover with balances := none } 0 := by
  refine ⟨by decide +kernel, fun h => ?_, fun h => ?_⟩
  · obtain ⟨out, hout, -⟩ := h
    exact main_unanswered rfl hout
  · have heval : (createRecoveryTransactionLogged reference EncryptionService.noMetadata
        recoveringProcess.device [] ['t'] { creationAnswers beforeTakeover with balances := none }
        0).toOption.any (·.published) = true := by
      decide +kernel
    obtain ⟨out, hout, hpublished⟩ := exists_ok_of_any heval
    obtain ⟨out', hout', hclean⟩ := h
    obtain rfl := Except.ok.inj (hout.symm.trans hout')
    rw [(hclean (.inr (.inr (.inl rfl)))).2.2.2] at hpublished
    cases hpublished

end RecoveryDomainService

end MultisigWallet
