import MultisigWallet.BrowserExtension
import MultisigWallet.EncryptionSound
import MultisigWallet.Reference
import MultisigWallet.TransactionSound

/-!
# MultisigWallet.BrowserExtensionSound

What the calls of the browser extension services do to the stored transaction, one lemma for
each, and from there the signatures of a replacement over runs.

Going back to draft keeps the signatures, and signing again adds to them. The signatures are
those of the last signing alone only if nothing signed before was signed differently
(`SignsAfresh`).
-/

namespace MultisigWallet

namespace ReplaceBrowserExtensionDomainService

/-! ### One row -/

/-- The row `id` goes from `tx` to `tx'`; the wallets stay. -/
structure Rewrites (r r' : Repositories) (id : TransactionID) (tx tx' : Transaction) : Prop where
  before : r.find id = some tx
  after : r'.find id = some tx'
  wallets : r'.wallets = r.wallets
  selectedWallet : r'.selectedWallet = r.selectedWallet

variable {lib : ThirdParty} {metadata : SafeContractMetadata} {r r' r'' : Repositories}
  {id : TransactionID} {tx tx' tx'' : Transaction} {clock : Clock}

theorem Rewrites.refl (h : r.find id = some tx) : Rewrites r r id tx tx := ⟨h, h, rfl, rfl⟩

theorem Rewrites.save (h : r.find id = some tx) (hid : tx'.id = tx.id) :
    Rewrites r (r.save tx') id tx tx' := by
  refine ⟨h, ?_, rfl, rfl⟩
  rw [← Repositories.id_of_find h, ← hid]
  exact Repositories.find_save r tx'

theorem Rewrites.trans (h : Rewrites r r' id tx tx') (h' : Rewrites r' r'' id tx' tx'') :
    Rewrites r r'' id tx tx'' :=
  ⟨h.before, h'.after, h'.wallets.trans h.wallets, h'.selectedWallet.trans h.selectedWallet⟩

/-- What is written where is determined. -/
theorem Rewrites.eq_of_find (h : Rewrites r r' id tx tx') (hfind : r.find id = some tx'') :
    tx = tx'' :=
  Option.some.inj (h.before.symm.trans hfind)

theorem transaction_ok : transaction r id = .ok tx ↔ r.find id = some tx := by
  unfold transaction
  cases r.find id <;> simp

/-! ### The calls -/

/-- The transaction, back in draft if it was being signed. -/
def reopened (tx : Transaction) : Transaction :=
  if tx.status = .signing then tx.changeStatus .draft else tx

theorem stepBackToDraft_ok (h : stepBackToDraft r id = .ok r') :
    ∃ tx, Rewrites r r' id tx (reopened tx) := by
  unfold stepBackToDraft at h
  obtain ⟨tx, htx, h⟩ := bind_ok.mp h
  have hfind := unwrap_ok.mp htx
  refine ⟨tx, ?_⟩
  unfold reopened
  split at h
  · rename_i hs
    rw [if_pos hs]
    obtain ⟨tx', htx', h⟩ := bind_ok.mp h
    obtain rfl := Except.ok.inj h
    unfold Transaction.stepBack at htx'
    rw [hs] at htx'
    obtain rfl := Except.ok.inj htx'
    exact .save hfind rfl
  · rename_i hs
    rw [if_neg hs]
    obtain rfl := Except.ok.inj h
    exact .refl hfind

/-- Nothing that is signed or sent is different. -/
structure SameCall (tx tx' : Transaction) : Prop where
  recipient : tx'.recipient = tx.recipient
  operation : tx'.operation = tx.operation
  data : tx'.data = tx.data
  signatures : tx'.signatures = tx.signatures
  hash : tx'.hash = tx.hash

theorem SameCall.refl (tx : Transaction) : SameCall tx tx := ⟨rfl, rfl, rfl, rfl, rfl⟩

theorem SameCall.trans (h : SameCall tx tx') (h' : SameCall tx' tx'') : SameCall tx tx'' :=
  ⟨h'.recipient.trans h.recipient, h'.operation.trans h.operation, h'.data.trans h.data,
    h'.signatures.trans h.signatures, h'.hash.trans h.hash⟩

theorem sameCall_reopened (tx : Transaction) : SameCall tx (reopened tx) := by
  unfold reopened
  split
  · exact ⟨rfl, rfl, rfl, rfl, rfl⟩
  · exact .refl tx

/-- The edits an estimation makes. -/
def isEstimation : Transaction.Edit → Bool
  | .fee _ => true
  | .feeEstimate _ => true
  | .nonce _ => true
  | _ => false

theorem change_estimation {edit : Transaction.Edit} {now : Date} (hedit : isEstimation edit = true)
    (h : tx.change edit now = .ok tx') :
    tx.status = .draft ∧ tx'.status = .draft ∧ tx'.id = tx.id ∧ SameCall tx tx' := by
  obtain ⟨hdraft, rfl⟩ := Transaction.change_ok.mp h
  cases edit <;> simp only [isEstimation, Bool.false_eq_true] at hedit <;>
    exact ⟨hdraft, hdraft, rfl, ⟨rfl, rfl, rfl, rfl, rfl⟩⟩

theorem estimateNetworkFee_ok {relay : EstimationRelay} {out : Except Thrown TokenAmount}
    (h : estimateNetworkFee lib r id relay clock = .ok (out, r')) :
    ∃ tx tx', Rewrites r r' id tx tx' ∧ SameCall tx tx' ∧ tx.operation.isSome = true ∧
      (tx' = tx ∨ tx.status = .draft ∧ tx'.status = .draft) := by
  unfold estimateNetworkFee at h
  obtain ⟨tx, htx, h⟩ := bind_ok.mp h
  have hfind := transaction_ok.mp htx
  obtain ⟨request, hrequest, h⟩ := bind_ok.mp h
  have hoperation : tx.operation.isSome = true := by
    unfold estimationRequest at hrequest
    obtain ⟨sender, hsender, hrequest⟩ := bind_ok.mp hrequest
    obtain ⟨operation, hoperation, hrequest⟩ := bind_ok.mp hrequest
    rw [unwrap_ok.mp hoperation]
    rfl
  split at h
  · obtain ⟨-, rfl⟩ := Prod.mk.inj (Except.ok.inj h)
    exact ⟨tx, tx, .refl hfind, .refl tx, hoperation, .inl rfl⟩
  · obtain ⟨tx₁, h₁, h⟩ := bind_ok.mp h
    obtain ⟨tx₂, h₂, h⟩ := bind_ok.mp h
    obtain ⟨nonce, -, h⟩ := bind_ok.mp h
    obtain ⟨tx₃, h₃, h⟩ := bind_ok.mp h
    obtain ⟨-, rfl⟩ := Prod.mk.inj (Except.ok.inj h)
    obtain ⟨hdraft, -, hid₁, hsame₁⟩ := change_estimation rfl h₁
    obtain ⟨-, -, hid₂, hsame₂⟩ := change_estimation rfl h₂
    obtain ⟨-, hdraft₃, hid₃, hsame₃⟩ := change_estimation rfl h₃
    exact ⟨tx, tx₃, .save hfind (hid₃.trans (hid₂.trans hid₁)),
      hsame₁.trans (hsame₂.trans hsame₃), hoperation, .inr ⟨hdraft, hdraft₃⟩⟩

/-- Writing data: the rest of the call stays, and the transaction is a draft. -/
theorem updateData_ok {data : Repositories → Except Trap (Option Data)}
    (h : updateData r id data clock = .ok r') :
    ∃ tx tx' r₁, Rewrites r r' id tx tx' ∧ r₁.wallets = r.wallets ∧
      r₁.selectedWallet = r.selectedWallet ∧ data r₁ = .ok tx'.data ∧ tx'.status = .draft ∧
      tx'.recipient = tx.recipient ∧ tx'.operation = tx.operation ∧
      tx'.signatures = tx.signatures ∧ tx'.hash = tx.hash := by
  unfold updateData at h
  obtain ⟨r₁, hr₁, h⟩ := bind_ok.mp h
  obtain ⟨tx₁, htx₁, h⟩ := bind_ok.mp h
  obtain ⟨d, hd, h⟩ := bind_ok.mp h
  obtain ⟨tx₂, h₂, h⟩ := bind_ok.mp h
  obtain rfl := Except.ok.inj h
  obtain ⟨tx, hback⟩ := stepBackToDraft_ok hr₁
  have hfind := transaction_ok.mp htx₁
  obtain rfl : reopened tx = tx₁ := Option.some.inj (hback.after.symm.trans hfind)
  obtain ⟨hdraft, rfl⟩ := Transaction.change_ok.mp h₂
  have hsame := sameCall_reopened tx
  exact ⟨tx, _, r₁, hback.trans (.save hfind rfl), hback.wallets, hback.selectedWallet, hd, hdraft,
    hsame.recipient, hsame.operation, hsame.signatures, hsame.hash⟩

/-! ### Signing -/

/-- The list with `σ` in it. -/
def withSignature (l : List Signature) (σ : Signature) : List Signature :=
  if σ ∈ l then l else l ++ [σ]

/-- The transaction being signed, with the hash that is signed and the signatures. -/
def signedAs (tx : Transaction) (hash : Data) (signatures : List Signature) (date : Option Date) :
    Transaction :=
  { tx with status := .signing, hash := some hash, signatures := signatures, updatedDate := date }

/-- Neither the status nor the signatures are hashed, nor the hash that is stored. -/
theorem hash_signedAs (wallets : List Wallet) (tx : Transaction) (hash : Data)
    (signatures : List Signature) (date : Option Date) :
    EncryptionService.hash lib metadata wallets (signedAs tx hash signatures date) =
      EncryptionService.hash lib metadata wallets tx := rfl

theorem addSignature_signedAs {hash : Data} {signatures : List Signature} {date : Option Date}
    {σ : Signature} {now : Date}
    (h : (signedAs tx hash signatures date).addSignature σ now = .ok tx') :
    ∃ date', tx' = signedAs tx hash (withSignature signatures σ) date' := by
  obtain ⟨-, rfl⟩ := Transaction.addSignature_ok.mp h
  unfold withSignature
  by_cases hmem : σ ∈ signatures
  · rw [if_pos hmem]
    exact ⟨date, if_pos hmem⟩
  · rw [if_neg hmem]
    exact ⟨some now, if_neg hmem⟩

/-- The signatures of `eoa` of the hash. -/
structure IsSignaturePair (lib : ThirdParty) (hash : Data) (eoa : EOAPair) (σ τ : Signature) :
    Prop where
  primary : lib.sign hash eoa.primary.privateKey = some σ.data
  primaryAddress : σ.address = eoa.primary.address
  derived : lib.sign hash eoa.derived.privateKey = some τ.data
  derivedAddress : τ.address = eoa.derived.address

theorem IsSignaturePair.unique {hash : Data} {eoa : EOAPair} {σ τ σ' τ' : Signature}
    (h : IsSignaturePair lib hash eoa σ τ) (h' : IsSignaturePair lib hash eoa σ' τ') :
    σ = σ' ∧ τ = τ' := by
  have hσ := Option.some.inj (h.primary.symm.trans h'.primary)
  have hτ := Option.some.inj (h.derived.symm.trans h'.derived)
  have haσ := h.primaryAddress.trans h'.primaryAddress.symm
  have haτ := h.derivedAddress.trans h'.derivedAddress.symm
  cases σ
  cases σ'
  cases τ
  cases τ'
  simp_all

/-- One account signs. -/
theorem signTransaction_ok {hash : Data} {signatures : List Signature} {date : Option Date}
    {eoa : ExternallyOwnedAccount} {now : Date}
    (h : signTransaction lib metadata r (signedAs tx hash signatures date) eoa now = .ok tx')
    (hhash : EncryptionService.hash lib metadata r.wallets tx = .ok hash) :
    ∃ σ date', σ.address = eoa.address ∧ lib.sign hash eoa.privateKey = some σ.data ∧
      tx' = signedAs tx hash (withSignature signatures σ) date' := by
  unfold signTransaction at h
  obtain ⟨d, hd, h⟩ := bind_ok.mp h
  obtain ⟨hash', hhash', hs⟩ := (EncryptionService.sign_ok metadata r.wallets).mp hd
  rw [hash_signedAs, hhash] at hhash'
  obtain rfl := Except.ok.inj hhash'
  obtain ⟨date', hdate'⟩ := addSignature_signedAs h
  exact ⟨⟨eoa.address, d⟩, date', rfl, hs, hdate'⟩

theorem signWithEOA_ok {eoa : EOAPair} (h : signWithEOA lib metadata r id eoa clock = .ok r') :
    ∃ tx hash σ τ date,
      Rewrites r r' id tx
        (signedAs tx hash (withSignature (withSignature tx.signatures σ) τ) date) ∧
      tx.status = .draft ∧ tx.recipient.isSome = true ∧
      EncryptionService.hash lib metadata r.wallets tx = .ok hash ∧
      IsSignaturePair lib hash eoa σ τ := by
  unfold signWithEOA at h
  obtain ⟨r₁, hr₁, h⟩ := bind_ok.mp h
  obtain ⟨tx₂, htx₂, h⟩ := bind_ok.mp h
  obtain ⟨tx₃, htx₃, h⟩ := bind_ok.mp h
  obtain ⟨tx₄, htx₄, h⟩ := bind_ok.mp h
  obtain ⟨tx₅, htx₅, h⟩ := bind_ok.mp h
  obtain rfl := Except.ok.inj h
  -- the hash is stored with the transaction before it is signed
  unfold updateHash at hr₁
  obtain ⟨tx, htx, hr₁⟩ := bind_ok.mp hr₁
  obtain ⟨hash, hhash, hr₁⟩ := bind_ok.mp hr₁
  obtain ⟨tx₁, htx₁, hr₁⟩ := bind_ok.mp hr₁
  obtain rfl := Except.ok.inj hr₁
  obtain ⟨hdraft, heq₁⟩ := Transaction.change_ok.mp htx₁
  have hid₁ : tx₁.id = tx.id := by rw [← heq₁]; rfl
  have hdraft₁ : tx₁.status = .draft := by rw [← heq₁]; exact hdraft
  have hsaved := Rewrites.save (transaction_ok.mp htx) hid₁
  obtain rfl := Option.some.inj (hsaved.after.symm.trans (transaction_ok.mp htx₂))
  obtain ⟨-, hrecipient, -, -, heq₃⟩ := (Transaction.proceed_draft_ok hdraft₁).mp htx₃
  have htx₃' : tx₃ = signedAs tx hash tx.signatures (some (clock 1)) := by
    rw [← heq₃, ← heq₁]
    rfl
  rw [htx₃'] at htx₄
  obtain ⟨σ, date₄, haσ, hsσ, rfl⟩ := signTransaction_ok htx₄ hhash
  obtain ⟨τ, date₅, haτ, hsτ, rfl⟩ := signTransaction_ok htx₅ hhash
  refine ⟨tx, hash, σ, τ, date₅, hsaved.trans (.save hsaved.after hid₁.symm), hdraft, ?_, hhash,
    ⟨hsσ, haσ, hsτ, haτ⟩⟩
  rw [← heq₁] at hrecipient
  exact hrecipient

theorem sign_ok_cases {eoa : Option EOAPair} {answer : Option Data} {out : Except Thrown Unit}
    (h : sign lib metadata r id eoa answer clock = .ok (out, r')) :
    (∃ e, checkedEOA lib r eoa answer = .ok (.error e) ∧ out = .error e ∧ r' = r) ∨
      ∃ pair, eoa = some pair ∧ checkedEOA lib r eoa answer = .ok (.ok pair) ∧ out = .ok () ∧
        signWithEOA lib metadata r id pair clock = .ok r' := by
  unfold sign at h
  obtain ⟨checked, hchecked, h⟩ := bind_ok.mp h
  cases checked with
  | error e =>
      obtain ⟨rfl, rfl⟩ := Prod.mk.inj (Except.ok.inj h)
      exact .inl ⟨e, hchecked, rfl, rfl⟩
  | ok pair =>
      obtain ⟨r₁, hr₁, h⟩ := bind_ok.mp h
      obtain ⟨rfl, rfl⟩ := Prod.mk.inj (Except.ok.inj h)
      refine .inr ⟨pair, ?_, hchecked, rfl, hr₁⟩
      cases eoa with
      | none => simp [checkedEOA] at hchecked
      | some eoa =>
          unfold checkedEOA at hchecked
          obtain ⟨owners, -, hchecked⟩ := bind_ok.mp hchecked
          cases owners with
          | none => simp [pure, Except.pure] at hchecked
          | some owners =>
              simp only [pure, Except.pure, Except.ok.injEq] at hchecked
              split at hchecked
              · rw [Except.ok.inj hchecked]
              · simp at hchecked

/-! ### The signatures of a replacement over runs -/

/-- A call on the transaction of a replacement. -/
inductive Call
  | update (newOwnerAddress : Str) (answer : Option Data) (clock : Clock)
  | stepBackToDraft
  | estimateNetworkFee (relay : EstimationRelay) (clock : Clock)
  | sign (eoa : Option EOAPair) (answer : Option Data) (clock : Clock)

/-- The repositories, and the accounts of the last call of `sign` that did not throw. -/
structure SigningState where
  repositories : Repositories
  lastSigned : Option EOAPair

/-- One call on the transaction `id`. -/
def step (lib : ThirdParty) (metadata : SafeContractMetadata) (id : TransactionID)
    (s : SigningState) : Call → Except Trap SigningState
  | .update newOwnerAddress answer clock => do
      return { s with
        repositories := ← update lib .replace s.repositories id newOwnerAddress answer clock }
  | .stepBackToDraft => do
      return { s with repositories := ← stepBackToDraft s.repositories id }
  | .estimateNetworkFee relay clock => do
      let (_, r) ← estimateNetworkFee lib s.repositories id relay clock
      return { s with repositories := r }
  | .sign eoa answer clock => do
      let (out, r) ← sign lib metadata s.repositories id eoa answer clock
      return ⟨r, match out with
        | .ok () => eoa
        | .error _ => s.lastSigned⟩

/-- The guard: a call of `sign` that passes its checks finds no signatures, or those of the
same accounts over the hash the transaction still has. -/
def SignsAfresh (lib : ThirdParty) (metadata : SafeContractMetadata) (id : TransactionID)
    (s : SigningState) (call : Call) : Prop :=
  match call with
  | .sign eoa answer _ =>
      match checkedEOA lib s.repositories eoa answer, s.repositories.find id with
      | .ok (.ok pair), some tx =>
          tx.signatures = [] ∨ (s.lastSigned = some pair ∧
            (EncryptionService.hash lib metadata s.repositories.wallets tx).toOption = tx.hash)
      | _, _ => True
  | _ => True

instance (id : TransactionID) (s : SigningState) (call : Call) :
    Decidable (SignsAfresh lib metadata id s call) := by
  unfold SignsAfresh
  split
  · split <;> infer_instance
  · infer_instance

/-- The signatures are those of `eoa` over `hash`; two equal ones are kept once. -/
def CarriesPair (lib : ThirdParty) (hash : Data) (eoa : EOAPair) (signatures : List Signature) :
    Prop :=
  ∃ σ τ, IsSignaturePair lib hash eoa σ τ ∧ signatures = if τ = σ then [σ] else [σ, τ]

theorem carriesPair_withSignature {hash : Data} {eoa : EOAPair} {σ τ : Signature}
    {signatures : List Signature} (hpair : IsSignaturePair lib hash eoa σ τ)
    (h : signatures = [] ∨ CarriesPair lib hash eoa signatures) :
    CarriesPair lib hash eoa (withSignature (withSignature signatures σ) τ) := by
  refine ⟨σ, τ, hpair, ?_⟩
  rcases h with rfl | ⟨σ', τ', hpair', rfl⟩
  · by_cases heq : τ = σ
    · simp [withSignature, heq]
    · simp [withSignature, heq]
  · obtain ⟨rfl, rfl⟩ := hpair.unique hpair'
    by_cases heq : τ = σ
    · simp [withSignature, heq]
    · simp [withSignature, heq]

/-- The transaction is signed by the last accounts that signed, and as it is. -/
def CurrentlySigned (lib : ThirdParty) (metadata : SafeContractMetadata) (s : SigningState)
    (tx : Transaction) : Prop :=
  ∃ eoa hash, s.lastSigned = some eoa ∧ tx.hash = some hash ∧
    EncryptionService.hash lib metadata s.repositories.wallets tx = .ok hash ∧
    CarriesPair lib hash eoa tx.signatures

/-- What holds of the transaction between calls. -/
inductive SigningInvariant (lib : ThirdParty) (metadata : SafeContractMetadata)
    (s : SigningState) (tx : Transaction) : Prop
  | unsigned (hstatus : tx.status = .draft) (h : tx.signatures = [])
  /-- Edited after it was signed: the signatures are over the hash of before. -/
  | edited (hstatus : tx.status = .draft) (eoa : EOAPair) (hash : Data)
      (hlast : s.lastSigned = some eoa) (hhash : tx.hash = some hash)
      (h : CarriesPair lib hash eoa tx.signatures)
  | signed (hstatus : tx.status = .signing) (h : CurrentlySigned lib metadata s tx)

/-- Any change that leaves a draft, the stored hash and the signatures. -/
theorem SigningInvariant.toDraft {s s' : SigningState}
    (hinv : SigningInvariant lib metadata s tx) (hlast : s'.lastSigned = s.lastSigned)
    (hstatus : tx'.status = .draft) (hsignatures : tx'.signatures = tx.signatures)
    (hhash : tx'.hash = tx.hash) : SigningInvariant lib metadata s' tx' := by
  cases hinv with
  | unsigned _ h => exact .unsigned hstatus (hsignatures.trans h)
  | edited _ eoa hash hl hh h =>
      exact .edited hstatus eoa hash (hlast.trans hl) (hhash.trans hh) (hsignatures ▸ h)
  | signed _ h =>
      obtain ⟨eoa, hash, hl, hh, -, h⟩ := h
      exact .edited hstatus eoa hash (hlast.trans hl) (hhash.trans hh) (hsignatures ▸ h)

theorem SigningInvariant.status_eq {s : SigningState} (h : SigningInvariant lib metadata s tx)
    (hs : tx.status ≠ .signing) : tx.status = .draft := by
  cases h with
  | unsigned hstatus _ => exact hstatus
  | edited hstatus _ _ _ _ _ => exact hstatus
  | signed hstatus _ => exact absurd hstatus hs

theorem SigningInvariant.reopened {s s' : SigningState}
    (h : SigningInvariant lib metadata s tx) (hlast : s'.lastSigned = s.lastSigned) :
    SigningInvariant lib metadata s' (reopened tx) := by
  have hsame := sameCall_reopened tx
  refine h.toDraft hlast ?_ hsame.signatures hsame.hash
  unfold ReplaceBrowserExtensionDomainService.reopened
  split
  · rfl
  · rename_i hs
    exact h.status_eq hs

/-- The transaction `id` is stored and meets the invariant. -/
def Signed (lib : ThirdParty) (metadata : SafeContractMetadata) (id : TransactionID)
    (s : SigningState) : Prop :=
  ∃ tx, s.repositories.find id = some tx ∧ SigningInvariant lib metadata s tx

theorem sign_signed {s s' : SigningState} {eoa : Option EOAPair} {answer : Option Data}
    (hguard : SignsAfresh lib metadata id s (.sign eoa answer clock))
    (hs : Signed lib metadata id s) (h : step lib metadata id s (.sign eoa answer clock) = .ok s') :
    Signed lib metadata id s' := by
  obtain ⟨⟨out, r⟩, hr, h⟩ := bind_ok.mp h
  obtain rfl := Except.ok.inj h
  obtain ⟨tx, htx, hinv⟩ := hs
  rcases sign_ok_cases hr with ⟨e, -, rfl, rfl⟩ | ⟨pair, rfl, hchecked, rfl, hsign⟩
  · exact ⟨tx, htx, hinv⟩
  · obtain ⟨tx', hash, σ, τ, date, hrow, -, -, hhash, hpair⟩ := signWithEOA_ok hsign
    obtain rfl := hrow.eq_of_find htx
    refine ⟨_, hrow.after, .signed rfl ⟨pair, hash, rfl, rfl, ?_, ?_⟩⟩
    · rw [hrow.wallets, hash_signedAs]
      exact hhash
    · refine carriesPair_withSignature hpair ?_
      -- what was there before is nothing, or the same two signatures
      simp only [SignsAfresh, hchecked, htx, hhash, Except.toOption] at hguard
      rcases hguard with hnone | ⟨hlast, hsame⟩
      · exact .inl hnone
      · cases hinv with
        | unsigned _ hnone => exact .inl hnone
        | edited _ eoa' hash' hl hh hcarries =>
            obtain rfl := Option.some.inj (hl.symm.trans hlast)
            obtain rfl := Option.some.inj (hh.symm.trans hsame.symm)
            exact .inr hcarries
        | signed _ hcurrent =>
            obtain ⟨eoa', hash', hl, hh, -, hcarries⟩ := hcurrent
            obtain rfl := Option.some.inj (hl.symm.trans hlast)
            obtain rfl := Option.some.inj (hh.symm.trans hsame.symm)
            exact .inr hcarries

theorem step_signed {s s' : SigningState} {call : Call}
    (hguard : SignsAfresh lib metadata id s call) (hs : Signed lib metadata id s)
    (h : step lib metadata id s call = .ok s') : Signed lib metadata id s' := by
  cases call with
  | update newOwnerAddress answer clock =>
      obtain ⟨r, hr, h⟩ := bind_ok.mp h
      obtain rfl := Except.ok.inj h
      obtain ⟨tx, htx, hinv⟩ := hs
      obtain ⟨tx', tx'', -, hrow, -, -, -, hdraft, -, -, hsignatures, hhash⟩ := updateData_ok hr
      obtain rfl := hrow.eq_of_find htx
      exact ⟨tx'', hrow.after, hinv.toDraft rfl hdraft hsignatures hhash⟩
  | stepBackToDraft =>
      obtain ⟨r, hr, h⟩ := bind_ok.mp h
      obtain rfl := Except.ok.inj h
      obtain ⟨tx, htx, hinv⟩ := hs
      obtain ⟨tx', hrow⟩ := stepBackToDraft_ok hr
      obtain rfl := hrow.eq_of_find htx
      exact ⟨_, hrow.after, hinv.reopened rfl⟩
  | estimateNetworkFee relay clock =>
      obtain ⟨⟨out, r⟩, hr, h⟩ := bind_ok.mp h
      obtain rfl := Except.ok.inj h
      obtain ⟨tx, htx, hinv⟩ := hs
      obtain ⟨tx', tx'', hrow, hsame, -, hstatus⟩ := estimateNetworkFee_ok hr
      obtain rfl := hrow.eq_of_find htx
      refine ⟨tx'', hrow.after, ?_⟩
      rcases hstatus with rfl | ⟨-, hdraft⟩
      · cases hinv with
        | unsigned hstatus hnone => exact .unsigned hstatus hnone
        | edited hstatus eoa hash hl hh hcarries => exact .edited hstatus eoa hash hl hh hcarries
        | signed hstatus hcurrent =>
            obtain ⟨eoa, hash, hl, hh, hhash, hcarries⟩ := hcurrent
            exact .signed hstatus ⟨eoa, hash, hl, hh, hrow.wallets ▸ hhash, hcarries⟩
      · exact hinv.toDraft rfl hdraft hsame.signatures hsame.hash
  | sign eoa answer clock => exact sign_signed hguard hs h

/-- From an unsigned draft, in every run whose `sign` calls find no signatures but their own:
a transaction that is being signed carries the signatures of the last accounts that signed,
over the hash it has, and no others. -/
theorem run_currentlySigned {s t : SigningState} {calls : List Call} {tx₀ tx : Transaction}
    (hfind : s.repositories.find id = some tx₀) (hdraft : tx₀.status = .draft)
    (hunsigned : tx₀.signatures = [])
    (hall : Transition.Allowed (step lib metadata id) (SignsAfresh lib metadata id) s calls)
    (hrun : Transition.run (step lib metadata id) s calls = .ok t)
    (htx : t.repositories.find id = some tx) (hsigning : tx.status = .signing) :
    CurrentlySigned lib metadata t tx := by
  have hinit : Signed lib metadata id s := ⟨tx₀, hfind, .unsigned hdraft hunsigned⟩
  obtain ⟨tx', htx', hinv⟩ : Signed lib metadata id t := Transition.run_invariant_of_allowed
    (fun _ _ _ hguard hs hstep => step_signed hguard hs hstep) hinit hall hrun
  obtain rfl := Option.some.inj (htx'.symm.trans htx)
  cases hinv with
  | unsigned hstatus _ => simp [hsigning] at hstatus
  | edited hstatus _ _ _ _ _ => simp [hsigning] at hstatus
  | signed _ h => exact h

/-! ### A replacement that is signed twice -/

/-- The accounts of a recovery phrase. -/
def phraseAccounts : EOAPair where
  primary := ⟨⟨"0xe05fcc23807536bee418f142d19fa0d21bb0cff7".toList⟩, Bytes.ofNat 32 0xA11CE⟩
  derived := ⟨⟨"0xe27316fff4839576802e8bfb695810c153bfcb92".toList⟩, Bytes.ofNat 32 0xA11CF⟩

/-- The answer of a contract whose owners are this device, the browser extension and the two
accounts of the phrase. -/
def ownersAnswer : Option Data :=
  some (Abi.words [32, 4, 0xedf678a5a905221f01e55f39827977be22427e91,
    0x1ff0723b3afc12afa7fa294d64f7d5f1b606230a,
    0xe05fcc23807536bee418f142d19fa0d21bb0cff7,
    0xe27316fff4839576802e8bfb695810c153bfcb92])

def replacementWallet : Wallet where
  id := ['w']
  state := .readyToUse
  owners := ⟨[⟨⟨"0xedf678a5a905221f01e55f39827977be22427e91".toList⟩, .thisDevice⟩,
    ⟨⟨"0x1fF0723b3AFC12aFa7Fa294d64F7D5F1B606230A".toList⟩, .browserExtension⟩], by decide⟩
  address := some EncryptionService.confirmationSender

/-- The transaction of a replacement once its fee is estimated on dummy data. -/
def estimatedReplacement : Transaction where
  id := ['t']
  type := .replaceBrowserExtension
  walletID := ['w']
  accountID := ⟨Token.Ether.id, ['w']⟩
  sender := some EncryptionService.confirmationSender
  recipient := some EncryptionService.confirmationSender
  amount := some (.ether 0)
  fee := some (.ether 320000)
  createdDate := some 0
  updatedDate := some 0
  feeEstimate := some ⟨30000, 2000, 500, .ether 10⟩
  data := some (SafeOwnerManagerContractProxy.swapOwner reference
    SafeOwnerManagerContractProxy.sentinelAddress
    ⟨"0xedf678a5a905221f01e55f39827977be22427e91".toList⟩ EncryptionService.confirmationSender)
  operation := some .call
  nonce := some ['2']

def replacementState : SigningState where
  repositories := {
    transactions := [estimatedReplacement]
    wallets := [replacementWallet]
    selectedWallet := some ['w']
    tokens := []
    externallyOwnedAccounts := [] }
  lastSigned := none

/-- The relay's estimate for a contract that has executed one transaction. -/
def estimationRelay : EstimationRelay := fun _ => some ⟨30000, 2000, 500, 10, some 1, Token.Ether.id⟩

/-- The new extension is chosen, the fee is estimated again and the phrase is entered. -/
def replacementCalls (newOwnerAddress : String) : List Call :=
  [.update newOwnerAddress.toList ownersAnswer fun _ => 0,
    .estimateNetworkFee estimationRelay fun _ => 0,
    .sign phraseAccounts ownersAnswer fun _ => 0]

/-- One extension is chosen and signed for. -/
theorem run_currentlySigned_once :
    ∃ t tx, Transition.run (step reference EncryptionService.noMetadata ['t']) replacementState
        (replacementCalls "0xa56ae0569c2826a06087161ede0b54f525eaa783") = .ok t ∧
      t.repositories.find ['t'] = some tx ∧ tx.status = .signing ∧
      CurrentlySigned reference EncryptionService.noMetadata t tx := by
  -- the run is evaluated once for both
  have hboth : Transition.Allowed (step reference EncryptionService.noMetadata ['t'])
      (SignsAfresh reference EncryptionService.noMetadata ['t']) replacementState
      (replacementCalls "0xa56ae0569c2826a06087161ede0b54f525eaa783") ∧
      ((Transition.run (step reference EncryptionService.noMetadata ['t'])
      replacementState (replacementCalls "0xa56ae0569c2826a06087161ede0b54f525eaa783")).toOption.any
        fun t => (t.repositories.find ['t']).any fun tx => tx.status = .signing) = true := by
    decide +kernel
  obtain ⟨hall, heval⟩ := hboth
  obtain ⟨t, hrun, ht⟩ := exists_ok_of_any heval
  obtain ⟨tx, htx, hsigning⟩ := (Option.any_eq_true _ _).mp ht
  have hsigning := of_decide_eq_true hsigning
  exact ⟨t, tx, hrun, htx, hsigning, run_currentlySigned rfl rfl rfl hall hrun htx hsigning⟩

theorem length_of_carriesPair {hash : Data} {eoa : EOAPair} {signatures : List Signature}
    (h : CarriesPair lib hash eoa signatures) : signatures.length ≤ 2 := by
  obtain ⟨σ, τ, -, rfl⟩ := h
  split <;> simp

/-- Another extension is chosen after the first one was signed for: the transaction keeps the
signatures of what it was. -/
theorem not_currentlySigned_twice :
    ∃ t tx, Transition.run (step reference EncryptionService.noMetadata ['t']) replacementState
        (replacementCalls "0xa56ae0569c2826a06087161ede0b54f525eaa783" ++
          replacementCalls "0xb4dd0dcb2beb4a5ba0e1d2a55c4d1b6c6dbfa6f3") = .ok t ∧
      t.repositories.find ['t'] = some tx ∧ tx.status = .signing ∧
      ¬ CurrentlySigned reference EncryptionService.noMetadata t tx := by
  have heval : ((Transition.run (step reference EncryptionService.noMetadata ['t'])
      replacementState (replacementCalls "0xa56ae0569c2826a06087161ede0b54f525eaa783" ++
        replacementCalls "0xb4dd0dcb2beb4a5ba0e1d2a55c4d1b6c6dbfa6f3")).toOption.any
          fun t => (t.repositories.find ['t']).any fun tx =>
            tx.status = .signing ∧ tx.signatures.length = 4) = true := by
    decide +kernel
  obtain ⟨t, hrun, ht⟩ := exists_ok_of_any heval
  obtain ⟨tx, htx, h⟩ := (Option.any_eq_true _ _).mp ht
  obtain ⟨hsigning, hlength⟩ := of_decide_eq_true h
  refine ⟨t, tx, hrun, htx, hsigning, ?_⟩
  intro hcurrent
  obtain ⟨eoa, hash, -, -, -, hcarries⟩ := hcurrent
  have hle := length_of_carriesPair hcarries
  omega

end ReplaceBrowserExtensionDomainService

end MultisigWallet
