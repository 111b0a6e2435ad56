import MultisigWallet.PostProcessingSound
import MultisigWallet.ReceiveSound

/-!
# MultisigWallet.PostProcessingPass

One pass of the synchronisation over the monitored transactions. The three services go through
one list, so a pass visits the transactions that are due in the order of `dueTransactions`:
service by service, oldest first. The first visit that throws ends it.

What the visits do to each other is seen in the `Pairing` alone: which extension a wallet is
paired with decides whether `deletePair` is called and with what. `Due.call` and `Due.after`
are a visit on that level, and `visit_due` says that `postProcess` is such a visit.
-/

namespace MultisigWallet

/-! ### Sorting a part -/

section

variable {α : Type} {le : α → α → Prop} [DecidableRel le]

theorem filter_orderedInsert [IsTrans α le] (p : α → Bool) {a : α} {l : List α}
    (hl : l.Pairwise le) :
    (l.orderedInsert le a).filter p =
      if p a then (l.filter p).orderedInsert le a else l.filter p := by
  induction l with
  | nil => by_cases ha : p a <;> simp [ha]
  | cons b l ih =>
      obtain ⟨hb, hl⟩ := List.pairwise_cons.mp hl
      by_cases hab : le a b
      · -- `a` comes first, also in the part
        have hfirst : ∀ c ∈ (b :: l).filter p, le a c := by
          intro c hc
          rcases List.mem_cons.mp (List.mem_of_mem_filter hc) with rfl | hc
          · exact hab
          · exact IsTrans.trans a b c hab (hb c hc)
        rw [List.orderedInsert_cons_of_le le l hab, List.filter_cons]
        split
        · cases hpart : (b :: l).filter p with
          | nil => rfl
          | cons c part =>
              rw [List.orderedInsert_cons_of_le le part (hfirst c (by rw [hpart]; simp))]
        · rfl
      · rw [List.orderedInsert_of_not_le le l hab, List.filter_cons, ih hl, List.filter_cons]
        by_cases hpb : p b
        · by_cases hpa : p a
          · simp [hpa, hpb, hab]
          · simp [hpa, hpb]
        · simp [hpb]

/-- Sorting a part of a list gives that part of the sorted list. -/
theorem filter_insertionSort [Std.Total le] [IsTrans α le] (p : α → Bool) (l : List α) :
    (l.insertionSort le).filter p = (l.filter p).insertionSort le := by
  induction l with
  | nil => rfl
  | cons a l ih =>
      rw [List.insertionSort_cons, filter_orderedInsert p (List.pairwise_insertionSort le l), ih]
      split
      · rename_i ha
        rw [List.filter_cons_of_pos ha, List.insertionSort_cons]
      · rename_i ha
        rw [List.filter_cons_of_neg ha]

end

namespace ReplaceBrowserExtensionDomainService

variable (lib : ThirdParty)

/-! ### Transactions that are due -/

/-- A monitored transaction of a stored wallet that the blockchain is done with, and the service
that takes it. -/
structure Due where
  flow : Flow
  tx : Transaction
  deriving DecidableEq

/-- What a service has to do for an entry. -/
def due (r : Repositories) (flow : Flow) (entry : RBETransactionMonitorEntry) : Option Due :=
  (r.find entry.transactionID).bind fun tx =>
    if tx.type = transactionType flow ∧ (tx.status = .success ∨ tx.status = .failed) ∧
        (findWallet r.wallets tx.walletID).isSome then
      some ⟨flow, tx⟩
    else none

/-- What a service has to do for a list of entries, oldest first. -/
def dueEntries (r : Repositories) (flow : Flow) (entries : List RBETransactionMonitorEntry) :
    List Due :=
  (entries.insertionSort fun a b => a.createdDate ≤ b.createdDate).filterMap (due r flow)

/-- The services in the order in which they get their turn. -/
abbrev services : List Flow := [.replace, .connect, .disconnect]

/-- What the services have to do. -/
def dueTransactions (s : Monitored) (flows : List Flow) : List Due :=
  flows.flatMap fun flow => dueEntries s.repositories flow s.entries

/-! ### Pairs -/

/-- The address of the browser extension that each wallet is paired with. -/
abbrev Pairing := WalletID → Option Str

def pairing (s : Monitored) : Pairing := fun walletID =>
  ((findWallet s.repositories.wallets walletID).bind (·.owner .browserExtension)).map
    (·.address.value)

namespace Due

/-- The new owner in the transaction's data, if the service can read it. -/
def newOwner (d : Due) : Option Str :=
  d.tx.data.bind fun data => ((newOwnerOfData lib d.flow data).toOption).join

/-- The address `deletePair` is called with, if it is called. -/
def call (d : Due) (p : Pairing) : Option Str :=
  if d.tx.status = .success then
    match d.flow with
    | .replace => (d.newOwner lib).bind fun _ => p d.tx.walletID
    | .connect => none
    | .disconnect => p d.tx.walletID
  else
    match d.flow with
    | .disconnect => none
    | _ => d.newOwner lib

/-- The pairs after the visit. -/
def after (d : Due) (p : Pairing) : Pairing :=
  if d.tx.status = .success then
    match d.flow with
    | .disconnect => Function.update p d.tx.walletID none
    | _ =>
        match d.newOwner lib with
        | none => p
        | some newOwner => Function.update p d.tx.walletID
            ((formattedAddress lib newOwner).toOption.map (·.value))
  else p

variable (deleted : Flow → TransactionID → Str → Bool)

/-- The visit calls `deletePair`, which throws. -/
def fails (d : Due) (p : Pairing) : Bool :=
  (d.call lib p).any fun address => !deleted d.flow d.tx.id address

/-- What a visit makes of the wallet of its transaction. -/
def Applied (d : Due) (w w' : Wallet) : Prop :=
  if d.tx.status = .success then
    match d.flow with
    | .disconnect => w'.owner .browserExtension = none ∧ w'.confirmationCount = 1
    | flow =>
        match d.newOwner lib with
        | none => w' = w
        | some newOwner =>
            (∃ address, formattedAddress lib newOwner = .ok address ∧
              w'.owner .browserExtension = some ⟨address, .browserExtension⟩) ∧
            w'.confirmationCount = if flow = .connect then 2 else w.confirmationCount
  else w' = w

end Due

/-- What the services rely on. The wallet of the transaction is ready to use and has its device;
the selected wallet has an address; and the service can read the transaction's data. -/
structure Ready (r : Repositories) (d : Due) : Prop where
  wallet : ∃ w, findWallet r.wallets d.tx.walletID = some w ∧ w.state.canChangeOwners = true ∧
    ∃ device, w.owner .thisDevice = some device ∧ (r.privateKey device.address).isSome = true
  contract : ∃ a, contractProxy r = .ok a
  data : ∀ data ∈ d.tx.data, ∃ newOwner, newOwnerOfData lib d.flow data = .ok newOwner

/-- A wallet that a visit saves: its owners other than the extension, its state and its address
are as they were. -/
structure SameDevice (w w' : Wallet) : Prop where
  id : w'.id = w.id
  state : w'.state = w.state
  address : w'.address = w.address
  device : w'.owner .thisDevice = w.owner .thisDevice

/-- A visit that does not throw: the wallet is stored as `Due.Applied` says, and the transaction
is not monitored any more. -/
structure Visited (d : Due) (s s' : Monitored) : Prop where
  transactions : s'.repositories.transactions = s.repositories.transactions
  accounts : s'.repositories.externallyOwnedAccounts = s.repositories.externallyOwnedAccounts
  selected : s'.repositories.selectedWallet = s.repositories.selectedWallet
  entries : s'.entries = s.entries.filter (·.transactionID ≠ d.tx.id)
  wallet : ∀ w ∈ findWallet s.repositories.wallets d.tx.walletID,
    ∃ w', findWallet s'.repositories.wallets d.tx.walletID = some w' ∧ SameDevice w w' ∧
      d.Applied lib w w'
  others : ∀ id ≠ d.tx.walletID,
    findWallet s'.repositories.wallets id = findWallet s.repositories.wallets id

/-! ### The parts of a visit -/

variable {lib} {s s' : Monitored} {r : Repositories} {d : Due} {w w' : Wallet}
  {deleted : Str → Bool} {newOwner : Str}

/-- What is read from transaction data is an address. -/
theorem formattedAddress_ok {flow : Flow} {data : Data}
    (h : newOwnerOfData lib flow data = .ok (some newOwner)) :
    ∃ address, formattedAddress lib newOwner = .ok address := by
  obtain ⟨a, ha, rfl⟩ : ∃ a : Address, a.WellFormed ∧ a.value = newOwner := by
    have hswap : ∀ {newOwner : Str},
        (SafeOwnerManagerContractProxy.decodeSwapOwnerArguments lib data).map
          (·.2.2.value) = some newOwner →
        ∃ a : Address, a.WellFormed ∧ a.value = newOwner := by
      intro newOwner h
      obtain ⟨⟨prev, old, new⟩, hdecoded, rfl⟩ := Option.map_eq_some_iff.mp h
      rw [decodeSwapOwnerArguments_eq] at hdecoded
      obtain ⟨-, hdecoded⟩ := Option.ite_none_right_eq_some.mp hdecoded
      obtain ⟨-, hnew⟩ := Prod.mk.inj (Option.some.inj hdecoded)
      obtain ⟨-, rfl⟩ := Prod.mk.inj hnew
      exact ⟨_, EthereumContractProxy.wellFormed_addressOfUInt lib _, rfl⟩
    cases flow with
    | replace => exact hswap (Except.ok.inj h)
    | disconnect => exact hswap (Except.ok.inj h)
    | connect =>
        obtain ⟨arguments, harguments, h⟩ := bind_ok.mp h
        obtain ⟨⟨new, threshold⟩, rfl, rfl⟩ := Option.map_eq_some_iff.mp (Except.ok.inj h)
        rw [decodeAddOwnerArguments_eq] at harguments
        split at harguments
        · split at harguments
          · obtain ⟨rfl, -⟩ := Prod.mk.inj (Option.some.inj (Except.ok.inj harguments))
            exact ⟨_, EthereumContractProxy.wellFormed_addressOfUInt lib _, rfl⟩
          · cases harguments
        · cases Except.ok.inj harguments
  obtain ⟨address, haddress, -⟩ := EncryptionService.address_wellFormed lib ha
  exact ⟨address, by rw [formattedAddress, haddress]⟩

theorem newOwnerAddress_ready (hready : Ready lib r d) (hfind : r.find d.tx.id = some d.tx) :
    newOwnerAddress lib d.flow r d.tx.id = .ok (d.newOwner lib) ∧
      ∀ newOwner ∈ d.newOwner lib, ∃ address, formattedAddress lib newOwner = .ok address := by
  obtain ⟨a, hcontract⟩ := hready.contract
  have htx : transaction r d.tx.id = .ok d.tx := by rw [transaction, hfind]
  cases hdata : d.tx.data with
  | none => simp [newOwnerAddress, Due.newOwner, htx, hdata, bind, Except.bind, pure, Except.pure]
  | some data =>
      obtain ⟨newOwner, hnewOwner⟩ := hready.data data hdata
      have hdue : d.newOwner lib = newOwner := by
        simp [Due.newOwner, hdata, hnewOwner, Except.toOption]
      rw [hdue]
      refine ⟨?_, fun x hx => formattedAddress_ok (hx ▸ hnewOwner)⟩
      simp [newOwnerAddress, htx, hdata, hcontract, hnewOwner, bind, Except.bind]

theorem deletePair_ready {walletID : WalletID} (hw : findWallet r.wallets walletID = some w)
    {device : Owner} (hdevice : w.owner .thisDevice = some device)
    (hkey : (r.privateKey device.address).isSome = true) (address : Str) :
    CommunicationDomainService.deletePair r walletID address deleted =
      .ok (if deleted address then .ok () else .error .network) := by
  obtain ⟨key, hkey⟩ := Option.isSome_iff_exists.mp hkey
  simp [CommunicationDomainService.deletePair, hw, hdevice, hkey, bind, Except.bind, pure,
    Except.pure]

theorem SameDevice.refl (w : Wallet) : SameDevice w w := ⟨rfl, rfl, rfl, rfl⟩

theorem SameDevice.trans {w₁ w₂ w₃ : Wallet} (h : SameDevice w₁ w₂) (h' : SameDevice w₂ w₃) :
    SameDevice w₁ w₃ :=
  ⟨h'.id.trans h.id, h'.state.trans h.state, h'.address.trans h.address, h'.device.trans h.device⟩

theorem SameDevice.changeConfirmationCount (h : SameDevice w w') (count : Int) :
    SameDevice w (w'.changeConfirmationCount count) := ⟨h.id, h.state, h.address, h.device⟩

variable (deleted) in
/-- Without an extension nothing is removed; with one, the pair has to be deleted first. -/
theorem removeOldOwner_ready (hw : findWallet r.wallets w.id = some w)
    (hstate : w.state.canChangeOwners = true) {device : Owner}
    (hdevice : w.owner .thisDevice = some device)
    (hkey : (r.privateKey device.address).isSome = true) :
    if ((w.owner .browserExtension).map (·.address.value)).any (fun a => !deleted a) = true then
      removeOldOwner r w deleted = .ok (.error .network)
    else ∃ w', removeOldOwner r w deleted = .ok (.ok w') ∧ SameDevice w w' ∧
      w'.confirmationCount = w.confirmationCount ∧ w'.owner .browserExtension = none := by
  unfold removeOldOwner
  cases howner : w.owner .browserExtension with
  | none =>
      rw [if_neg (by simp)]
      exact ⟨w, rfl, .refl w, rfl, howner⟩
  | some oldOwner =>
      have hrole : oldOwner.role = .browserExtension := (OwnerList.mem_of_first howner).2
      simp only [deletePair_ready hw hdevice hkey]
      by_cases hdeleted : deleted oldOwner.address.value = true
      · have hremove : w.removeOwner oldOwner.role =
            .ok { w with owners := w.owners.remove .browserExtension } := by
          simp [hrole, Wallet.removeOwner, Wallet.assertCanChangeOwners, hstate,
            Wallet.assertOwnerExists, howner, bind, Except.bind, pure, Except.pure]
        rw [if_neg (by simp [hdeleted]), hremove]
        refine ⟨{ w with owners := w.owners.remove .browserExtension }, ?_, ?_, rfl,
          OwnerList.first_remove_self w.owners _⟩
        · simp [hdeleted, bind, Except.bind, pure, Except.pure]
        · exact ⟨rfl, rfl, rfl, OwnerList.first_remove w.owners (by decide)⟩
      · simp [hdeleted, bind, Except.bind, pure, Except.pure]

theorem add_ready (s : Monitored) (hstate : w.state.canChangeOwners = true) {address : Address}
    (haddress : formattedAddress lib newOwner = .ok address) :
    ∃ w', add lib s newOwner w =
        .ok (w', { s with repositories := s.repositories.saveWallet w' }) ∧ SameDevice w w' ∧
      w'.confirmationCount = w.confirmationCount ∧
      w'.owner .browserExtension = some ⟨address, .browserExtension⟩ := by
  have hadd : w.addOwner ⟨address, .browserExtension⟩ =
      .ok { w with owners := w.owners.add ⟨address, .browserExtension⟩ } := by
    simp [Wallet.addOwner, Wallet.assertCanChangeOwners, hstate, bind, Except.bind, pure,
      Except.pure]
  refine ⟨{ w with owners := w.owners.add ⟨address, .browserExtension⟩ }, ?_, ?_, rfl, ?_⟩
  · simp only [add, haddress, hadd, bind, Except.bind, pure, Except.pure]
  · exact ⟨rfl, rfl, rfl, OwnerList.first_add w.owners (by simp)⟩
  · exact OwnerList.first_add_self w.owners (o := ⟨address, .browserExtension⟩) (by simp)

/-! ### A visit -/

theorem pairing_of_find {walletID : WalletID}
    (hw : findWallet s.repositories.wallets walletID = some w) :
    pairing s walletID = (w.owner .browserExtension).map (·.address.value) := by
  rw [pairing, hw, Option.bind_some]

/-- Nothing was to be done to the wallet. -/
theorem Visited.unregistered (hw : findWallet s.repositories.wallets d.tx.walletID = some w)
    (happlied : d.Applied lib w w) : Visited lib d s (unregisterPostProcessing s d.tx.id) where
  transactions := rfl
  accounts := rfl
  selected := rfl
  entries := rfl
  wallet v hv := by
    obtain rfl := Option.some.inj (hw.symm.trans hv)
    exact ⟨w, hw, ⟨rfl, rfl, rfl, rfl⟩, happlied⟩
  others _ _ := rfl

/-- The wallet was saved. -/
theorem Visited.saved (hw : findWallet s.repositories.wallets d.tx.walletID = some w)
    (hdevice : SameDevice w w') (happlied : d.Applied lib w w')
    (htransactions : r.transactions = s.repositories.transactions)
    (haccounts : r.externallyOwnedAccounts = s.repositories.externallyOwnedAccounts)
    (hselected : r.selectedWallet = s.repositories.selectedWallet)
    (hwallets : ∀ id, findWallet r.wallets id =
      if id = w'.id then some w' else findWallet s.repositories.wallets id) :
    Visited lib d s (unregisterPostProcessing { s with repositories := r } d.tx.id) where
  transactions := htransactions
  accounts := haccounts
  selected := hselected
  entries := rfl
  wallet v hv := by
    obtain rfl := Option.some.inj (hw.symm.trans hv)
    have hid : d.tx.walletID = w'.id := (id_of_findWallet hw).symm.trans hdevice.id.symm
    exact ⟨w', (hwallets d.tx.walletID).trans (if_pos hid), hdevice, happlied⟩
  others id hid := by
    have hne : id ≠ w'.id := by
      rw [hdevice.id, id_of_findWallet hw]
      exact hid
    exact (hwallets id).trans (if_neg hne)

variable {answers : Flow → TransactionID → Str → Bool}

/-- What a visit does, on the level of the pairs: it fails and leaves everything as it was, or it
does what the transaction asks for. -/
def Visits (lib : ThirdParty) (answers : Flow → TransactionID → Str → Bool) (d : Due)
    (s : Monitored) (outcome : Except Trap (Except Thrown Unit × Monitored)) : Prop :=
  if d.fails lib answers (pairing s) then outcome = .ok (.error .network, s)
  else ∃ s', outcome = .ok (.ok (), s') ∧ Visited lib d s s'

/-- A failed transaction: the new pair is deleted, if there is one. -/
theorem visits_failed (hready : Ready lib s.repositories d)
    (hfind : s.repositories.find d.tx.id = some d.tx) (hstatus : d.tx.status ≠ .success)
    (hw : findWallet s.repositories.wallets d.tx.walletID = some w) :
    Visits lib answers d s (match d.flow with
      | .disconnect => postProcessRemoval s d.tx w (answers d.flow d.tx.id)
      | _ => postProcessNewOwner lib d.flow s d.tx w (answers d.flow d.tx.id)) := by
  obtain ⟨hnewOwner, -⟩ := newOwnerAddress_ready hready hfind
  obtain ⟨v, hv, -, device, hdevice, hkey⟩ := hready.wallet
  obtain rfl := Option.some.inj (hw.symm.trans hv)
  have happlied : d.Applied lib w w := by rw [Due.Applied, if_neg hstatus]
  have hdone : ∃ s', (.ok (.ok (), unregisterPostProcessing s d.tx.id) :
      Except Trap (Except Thrown Unit × Monitored)) = .ok (.ok (), s') ∧ Visited lib d s s' :=
    ⟨_, rfl, .unregistered hw happlied⟩
  have hnew : d.flow ≠ .disconnect → Visits lib answers d s
      (postProcessNewOwner lib d.flow s d.tx w (answers d.flow d.tx.id)) := by
    intro hflow
    have hcall : d.call lib (pairing s) = d.newOwner lib := by
      rw [Due.call, if_neg hstatus]
      split
      · contradiction
      · rfl
    unfold Visits Due.fails postProcessNewOwner
    rw [hcall, hnewOwner]
    cases hname : d.newOwner lib with
    | none => simpa [bind, Except.bind, pure, Except.pure] using hdone
    | some newOwner =>
        by_cases hanswer : answers d.flow d.tx.id newOwner = true
        · simpa [hstatus, deletePair_ready hw hdevice hkey, hanswer, bind, Except.bind, pure,
            Except.pure] using hdone
        · simp [hstatus, deletePair_ready hw hdevice hkey, hanswer, bind, Except.bind, pure,
            Except.pure]
  cases hflow : d.flow with
  | disconnect =>
      have hcall : d.call lib (pairing s) = none := by rw [Due.call, if_neg hstatus, hflow]
      unfold Visits Due.fails postProcessRemoval
      rw [hcall]
      simpa [hstatus, pure, Except.pure] using hdone
  | replace =>
      rw [hflow] at hnew
      exact hnew (by decide)
  | connect =>
      rw [hflow] at hnew
      exact hnew (by decide)

/-- A successful disconnection: the pair is deleted, then the owner. -/
theorem visits_disconnect (hready : Ready lib s.repositories d) (hflow : d.flow = .disconnect)
    (hstatus : d.tx.status = .success)
    (hw : findWallet s.repositories.wallets d.tx.walletID = some w) :
    Visits lib answers d s (postProcessRemoval s d.tx w (answers d.flow d.tx.id)) := by
  obtain ⟨v, hv, hstate, device, hdevice, hkey⟩ := hready.wallet
  obtain rfl := Option.some.inj (hw.symm.trans hv)
  have hw' : findWallet s.repositories.wallets w.id = some w := by rwa [id_of_findWallet hw]
  have hcall : d.call lib (pairing s) = (w.owner .browserExtension).map (·.address.value) := by
    rw [Due.call, if_pos hstatus, hflow, pairing_of_find hw]
  have hremove := removeOldOwner_ready (answers d.flow d.tx.id) hw' hstate hdevice hkey
  unfold Visits Due.fails postProcessRemoval
  rw [hcall, if_pos hstatus]
  split at hremove
  · rename_i hfails
    rw [if_pos hfails, hremove]
    rfl
  · rename_i hfails
    obtain ⟨w₁, hremove, hsame, -, hnone⟩ := hremove
    rw [if_neg hfails, hremove]
    refine ⟨_, rfl, .saved hw (hsame.changeConfirmationCount 1) ?_ rfl rfl rfl
      (findWallet_saveWallet s.repositories _)⟩
    rw [Due.Applied, if_pos hstatus, hflow]
    exact ⟨hnone, rfl⟩

/-- There is no new owner to be read, and nothing to be done. -/
theorem visited_nothing (hflow : d.flow ≠ .disconnect) (hname : d.newOwner lib = none)
    (hw : findWallet s.repositories.wallets d.tx.walletID = some w) :
    Visited lib d s (unregisterPostProcessing s d.tx.id) := by
  refine .unregistered hw ?_
  unfold Due.Applied
  split
  · split
    · contradiction
    · simp only [hname]
  · rfl

/-- A successful connection: the owner is added, and the wallet is saved again with its count. -/
theorem visits_connect (hready : Ready lib s.repositories d)
    (hfind : s.repositories.find d.tx.id = some d.tx) (hflow : d.flow = .connect)
    (hstatus : d.tx.status = .success)
    (hw : findWallet s.repositories.wallets d.tx.walletID = some w) :
    Visits lib answers d s (postProcessNewOwner lib d.flow s d.tx w (answers d.flow d.tx.id)) := by
  obtain ⟨hnewOwner, haddress⟩ := newOwnerAddress_ready hready hfind
  obtain ⟨v, hv, hstate, -⟩ := hready.wallet
  obtain rfl := Option.some.inj (hw.symm.trans hv)
  have hcall : d.call lib (pairing s) = none := by rw [Due.call, if_pos hstatus, hflow]
  unfold Visits Due.fails postProcessNewOwner
  rw [hcall, hnewOwner, if_neg (by simp)]
  cases hname : d.newOwner lib with
  | none => exact ⟨_, rfl, visited_nothing (by simp [hflow]) hname hw⟩
  | some newOwner =>
      obtain ⟨address, hformatted⟩ := haddress newOwner hname
      obtain ⟨w₁, hadd, hsame, -, howner⟩ := add_ready s hstate hformatted
      simp only [bind, Except.bind, hflow, if_pos hstatus, processSuccess, hadd, pure, Except.pure]
      refine ⟨_, rfl, .saved hw (hsame.changeConfirmationCount 2) ?_ rfl rfl rfl fun id => ?_⟩
      · rw [Due.Applied, if_pos hstatus, hflow]
        simp only [hname]
        exact ⟨⟨address, hformatted, howner⟩, rfl⟩
      · -- the wallet is saved twice, the second time with its count
        rw [findWallet_saveWallet, findWallet_saveWallet]
        show (if id = w₁.id then _ else if id = w₁.id then _ else _) = if id = w₁.id then _ else _
        split
        · rfl
        · rfl

/-- A successful replacement: the old pair is deleted, if there is one, then the owners change. -/
theorem visits_replace (hready : Ready lib s.repositories d)
    (hfind : s.repositories.find d.tx.id = some d.tx) (hflow : d.flow = .replace)
    (hstatus : d.tx.status = .success)
    (hw : findWallet s.repositories.wallets d.tx.walletID = some w) :
    Visits lib answers d s (postProcessNewOwner lib d.flow s d.tx w (answers d.flow d.tx.id)) := by
  obtain ⟨hnewOwner, haddress⟩ := newOwnerAddress_ready hready hfind
  obtain ⟨v, hv, hstate, device, hdevice, hkey⟩ := hready.wallet
  obtain rfl := Option.some.inj (hw.symm.trans hv)
  have hw' : findWallet s.repositories.wallets w.id = some w := by rwa [id_of_findWallet hw]
  have hcall : d.call lib (pairing s) = (d.newOwner lib).bind fun _ =>
      (w.owner .browserExtension).map (·.address.value) := by
    rw [Due.call, if_pos hstatus, hflow, pairing_of_find hw]
  have hremove := removeOldOwner_ready (answers d.flow d.tx.id) hw' hstate hdevice hkey
  unfold Visits Due.fails postProcessNewOwner
  rw [hcall, hnewOwner]
  cases hname : d.newOwner lib with
  | none => exact ⟨_, rfl, visited_nothing (by simp [hflow]) hname hw⟩
  | some newOwner =>
      obtain ⟨address, hformatted⟩ := haddress newOwner hname
      simp only [Option.bind_some, bind, Except.bind, if_pos hstatus, hflow, processSuccess] at hremove ⊢
      split at hremove
      · rename_i hfails
        rw [if_pos hfails, hremove]
        rfl
      · rename_i hfails
        obtain ⟨w₁, hremove, hsame, hcount, -⟩ := hremove
        obtain ⟨w₂, hadd, hsame', hcount', howner⟩ :=
          add_ready s (hsame.state ▸ hstate) hformatted
        rw [if_neg hfails, hremove]
        simp only [hadd, pure, Except.pure]
        refine ⟨_, rfl, .saved hw (hsame.trans hsame') ?_ rfl rfl rfl
          (findWallet_saveWallet s.repositories _)⟩
        rw [Due.Applied, if_pos hstatus, hflow]
        simp only [hname]
        exact ⟨⟨address, hformatted, howner⟩, hcount'.trans hcount⟩

variable (answers) in
/-- A due transaction is visited. -/
theorem visit_due (hready : Ready lib s.repositories d)
    (hfind : s.repositories.find d.tx.id = some d.tx) (htype : d.tx.type = transactionType d.flow)
    (hfinal : d.tx.status = .success ∨ d.tx.status = .failed) :
    Visits lib answers d s (postProcess lib d.flow s d.tx.id (answers d.flow d.tx.id)) := by
  obtain ⟨w, hw, -⟩ := hready.wallet
  unfold postProcess
  simp only [hfind, htype, hfinal, hw, and_self, if_true]
  by_cases hstatus : d.tx.status = .success
  · cases hflow : d.flow with
    | disconnect => simpa only [hflow] using visits_disconnect hready hflow hstatus hw
    | connect => simpa only [hflow] using visits_connect hready hfind hflow hstatus hw
    | replace => simpa only [hflow] using visits_replace hready hfind hflow hstatus hw
  · exact visits_failed hready hfind hstatus hw

/-! ### What a visit leaves for the others -/

/-- A due transaction that its service can take care of. -/
structure Waiting (lib : ThirdParty) (r : Repositories) (d : Due) : Prop where
  ready : Ready lib r d
  find : r.find d.tx.id = some d.tx
  type : d.tx.type = transactionType d.flow
  final : d.tx.status = .success ∨ d.tx.status = .failed

/-- A wallet is there after the visit if it was there before. -/
theorem Visited.sameDevice (h : Visited lib d s s') {id : WalletID}
    (hw : findWallet s.repositories.wallets id = some w) :
    ∃ w', findWallet s'.repositories.wallets id = some w' ∧ SameDevice w w' := by
  by_cases hid : id = d.tx.walletID
  · subst hid
    obtain ⟨w', hw', hsame, -⟩ := h.wallet w hw
    exact ⟨w', hw', hsame⟩
  · exact ⟨w, (h.others id hid).trans hw, .refl w⟩

theorem Visited.contractProxy (h : Visited lib d s s') {a : Address}
    (hcontract : contractProxy s.repositories = .ok a) :
    ReplaceBrowserExtensionDomainService.contractProxy s'.repositories = .ok a := by
  obtain ⟨w, hw, haddress⟩ := bind_ok.mp hcontract
  obtain ⟨id, hid, hfind⟩ := Option.bind_eq_some_iff.mp (unwrap_ok.mp hw)
  obtain ⟨w', hw', hsame⟩ := h.sameDevice hfind
  refine bind_ok.mpr ⟨w', unwrap_ok.mpr ?_, by rw [hsame.address]; exact haddress⟩
  exact Option.bind_eq_some_iff.mpr ⟨id, h.selected.trans hid, hw'⟩

theorem Visited.waiting (h : Visited lib d s s') {d' : Due} (hd' : Waiting lib s.repositories d') :
    Waiting lib s'.repositories d' := by
  refine ⟨⟨?_, ?_, hd'.ready.data⟩, ?_, hd'.type, hd'.final⟩
  · obtain ⟨w, hw, hstate, device, hdevice, hkey⟩ := hd'.ready.wallet
    obtain ⟨w', hw', hsame⟩ := h.sameDevice hw
    refine ⟨w', hw', hsame.state ▸ hstate, device, hsame.device.trans hdevice, ?_⟩
    rw [Repositories.privateKey, h.accounts]
    exact hkey
  · obtain ⟨a, ha⟩ := hd'.ready.contract
    exact ⟨a, h.contractProxy ha⟩
  · rw [Repositories.find, h.transactions]
    exact hd'.find

/-- The pairs after a visit. -/
theorem Visited.pairing (h : Visited lib d s s') (hd : Waiting lib s.repositories d) :
    pairing s' = d.after lib (ReplaceBrowserExtensionDomainService.pairing s) := by
  obtain ⟨w, hw, -⟩ := hd.ready.wallet
  obtain ⟨w', hw', -, happlied⟩ := h.wallet w hw
  have hother : ∀ id ≠ d.tx.walletID, ReplaceBrowserExtensionDomainService.pairing s' id =
      ReplaceBrowserExtensionDomainService.pairing s id := fun id hid => by
    rw [ReplaceBrowserExtensionDomainService.pairing, h.others id hid]
    rfl
  have hown : ReplaceBrowserExtensionDomainService.pairing s' d.tx.walletID =
      (w'.owner .browserExtension).map (·.address.value) := pairing_of_find hw'
  -- the wallet is as it was
  have hsame : w' = w → ReplaceBrowserExtensionDomainService.pairing s' =
      ReplaceBrowserExtensionDomainService.pairing s := by
    rintro rfl
    funext id
    by_cases hid : id = d.tx.walletID
    · rw [hid, hown, pairing_of_find hw]
    · exact hother id hid
  -- the wallet has a new extension, or none
  have hupdate : ∀ extension, (w'.owner .browserExtension).map (·.address.value) = extension →
      ReplaceBrowserExtensionDomainService.pairing s' = Function.update
        (ReplaceBrowserExtensionDomainService.pairing s) d.tx.walletID extension := by
    rintro _ rfl
    funext id
    by_cases hid : id = d.tx.walletID
    · rw [hid, hown, Function.update_self]
    · rw [hother id hid, Function.update_of_ne hid]
  unfold Due.Applied at happlied
  unfold Due.after
  by_cases hstatus : d.tx.status = .success
  · rw [if_pos hstatus] at happlied ⊢
    split at happlied
    · exact hupdate none (by rw [happlied.1]; rfl)
    · split
      · rename_i hname
        simp only [hname] at happlied
        exact hsame happlied
      · rename_i newOwner hname
        simp only [hname] at happlied
        obtain ⟨⟨address, hformatted, howner⟩, -⟩ := happlied
        exact hupdate _ (by rw [howner, hformatted]; rfl)
  · rw [if_neg hstatus] at happlied ⊢
    exact hsame happlied

/-! ### Visits in a row -/

variable (lib answers) in
/-- The due transactions, one after the other, up to a visit that throws. -/
def visitAll : List Due → Monitored → Except Trap (Except Thrown Unit × Monitored)
  | [], s => .ok (.ok (), s)
  | d :: ds, s => do
      match ← postProcess lib d.flow s d.tx.id (answers d.flow d.tx.id) with
      | (.error e, s) => return (.error e, s)
      | (.ok (), s) => visitAll ds s

variable (lib answers) in
/-- Visits that do not throw. -/
inductive VisitedAll : List Due → Monitored → Monitored → Prop
  | nil (s : Monitored) : VisitedAll [] s s
  | cons {d : Due} {ds : List Due} {s₁ s₂ s₃ : Monitored}
      (hvisit : postProcess lib d.flow s₁ d.tx.id (answers d.flow d.tx.id) = .ok (.ok (), s₂))
      (hfails : d.fails lib answers (pairing s₁) = false) (hvisited : Visited lib d s₁ s₂)
      (hrest : VisitedAll ds s₂ s₃) : VisitedAll (d :: ds) s₁ s₃

variable {ds done : List Due}

variable (answers) in
/-- Visits in a row come to their end, or to the first one that throws. -/
theorem visitAll_cases (hwaiting : ∀ d ∈ ds, Waiting lib s.repositories d) :
    ∃ done s', VisitedAll lib answers done s s' ∧
      ((ds = done ∧ visitAll lib answers ds s = .ok (.ok (), s')) ∨
        ∃ d rest, ds = done ++ d :: rest ∧ d.fails lib answers (pairing s') = true ∧
          visitAll lib answers ds s = .ok (.error .network, s')) := by
  induction ds generalizing s with
  | nil => exact ⟨[], s, .nil s, .inl ⟨rfl, rfl⟩⟩
  | cons d ds ih =>
      have hd := hwaiting d List.mem_cons_self
      have hvisit := visit_due answers hd.ready hd.find hd.type hd.final
      unfold Visits at hvisit
      split at hvisit
      · rename_i hfails
        refine ⟨[], s, .nil s, .inr ⟨d, ds, rfl, hfails, ?_⟩⟩
        rw [visitAll, hvisit]
        rfl
      · rename_i hfails
        obtain ⟨s₁, hvisit, hvisited⟩ := hvisit
        obtain ⟨done, s', hdone, hcases⟩ := ih fun d' hd' =>
          hvisited.waiting (hwaiting d' (List.mem_cons_of_mem d hd'))
        have hrest : visitAll lib answers (d :: ds) s = visitAll lib answers ds s₁ := by
          rw [visitAll, hvisit]
          rfl
        refine ⟨d :: done, s', .cons hvisit (Bool.not_eq_true _ ▸ hfails) hvisited hdone, ?_⟩
        rw [hrest]
        rcases hcases with ⟨rfl, hall⟩ | ⟨d', rest, rfl, hd', hstopped⟩
        · exact .inl ⟨rfl, hall⟩
        · exact .inr ⟨d', rest, rfl, hd', hstopped⟩

theorem VisitedAll.transactions (h : VisitedAll lib answers done s s') :
    s'.repositories.transactions = s.repositories.transactions := by
  induction h with
  | nil => rfl
  | cons _ _ hvisited _ ih => exact ih.trans hvisited.transactions

theorem VisitedAll.entries (h : VisitedAll lib answers done s s') :
    s'.entries = s.entries.filter fun e => decide (e.transactionID ∉ done.map (·.tx.id)) := by
  induction h with
  | nil => simp
  | @cons d ds _ _ _ _ _ hvisited _ ih =>
      rw [ih, hvisited.entries, List.filter_filter]
      refine List.filter_congr fun e _ => ?_
      by_cases hid : e.transactionID = d.tx.id <;> simp [hid]

theorem VisitedAll.waiting (h : VisitedAll lib answers done s s')
    (hd : Waiting lib s.repositories d) : Waiting lib s'.repositories d := by
  induction h with
  | nil => exact hd
  | cons _ _ hvisited _ ih => exact ih (hvisited.waiting hd)

/-! ### The pass -/

theorem transactionType_injective {flow flow' : Flow}
    (h : transactionType flow = transactionType flow') : flow = flow' := by
  cases flow <;> cases flow' <;> first | rfl | exact nomatch h

theorem due_eq_some {flow : Flow} {entry : RBETransactionMonitorEntry} :
    due r flow entry = some d ↔ r.find entry.transactionID = some d.tx ∧ d.flow = flow ∧
      d.tx.type = transactionType flow ∧ (d.tx.status = .success ∨ d.tx.status = .failed) ∧
      (findWallet r.wallets d.tx.walletID).isSome := by
  unfold due
  cases hfind : r.find entry.transactionID with
  | none => simp
  | some tx =>
      rw [Option.bind_some, Option.ite_none_right_eq_some]
      constructor
      · rintro ⟨⟨htype, hfinal, hwallet⟩, h⟩
        obtain rfl := Option.some.inj h
        exact ⟨rfl, rfl, htype, hfinal, hwallet⟩
      · rintro ⟨htx, rfl, htype, hfinal, hwallet⟩
        obtain rfl := Option.some.inj htx
        exact ⟨⟨htype, hfinal, hwallet⟩, rfl⟩

/-- Nothing happens when a transaction is visited that is not due. -/
theorem postProcess_of_due_eq_none {flow : Flow} {entry : RBETransactionMonitorEntry}
    (h : due s.repositories flow entry = none) (deleted : Str → Bool) :
    postProcess lib flow s entry.transactionID deleted = .ok (.ok (), s) := by
  unfold postProcess
  cases hfind : s.repositories.find entry.transactionID with
  | none => rfl
  | some tx =>
      simp only
      split
      · rename_i hfinal
        cases hwallet : findWallet s.repositories.wallets tx.walletID with
        | none => rfl
        | some w =>
            have hdue : due s.repositories flow entry = some ⟨flow, tx⟩ :=
              due_eq_some.mpr ⟨hfind, rfl, hfinal.1, hfinal.2, by rw [hwallet]; rfl⟩
            exact nomatch h.symm.trans hdue
      · rfl

/-- A visit changes neither the transactions nor which wallets there are. -/
theorem Visited.due (h : Visited lib d s s') (hd : Waiting lib s.repositories d) (flow : Flow)
    (entry : RBETransactionMonitorEntry) :
    due s'.repositories flow entry =
      ReplaceBrowserExtensionDomainService.due s.repositories flow entry := by
  obtain ⟨w, hw, -⟩ := hd.ready.wallet
  obtain ⟨w', hw', -⟩ := h.wallet w hw
  have hwallets : ∀ id, (findWallet s'.repositories.wallets id).isSome =
      (findWallet s.repositories.wallets id).isSome := by
    intro id
    by_cases hid : id = d.tx.walletID
    · rw [hid, hw, hw']
      rfl
    · rw [h.others id hid]
  unfold ReplaceBrowserExtensionDomainService.due
  simp only [Repositories.find, h.transactions, hwallets]

/-- What a service does with its entries, of which only the due ones matter. -/
theorem postProcessEntries_eq {flow : Flow} {entries : List RBETransactionMonitorEntry}
    (hwaiting : ∀ d ∈ entries.filterMap (due s.repositories flow), Waiting lib s.repositories d) :
    postProcessEntries lib flow (answers flow) entries s =
      visitAll lib answers (entries.filterMap (due s.repositories flow)) s := by
  induction entries generalizing s with
  | nil => rfl
  | cons entry entries ih =>
      rw [postProcessEntries]
      cases hdue : due s.repositories flow entry with
      | none =>
          rw [List.filterMap_cons_none hdue] at hwaiting ⊢
          rw [postProcess_of_due_eq_none hdue, ← ih hwaiting]
          rfl
      | some d =>
          obtain ⟨hfind, rfl, -⟩ := due_eq_some.mp hdue
          rw [List.filterMap_cons_some hdue] at hwaiting ⊢
          have hid : d.tx.id = entry.transactionID := Repositories.id_of_find hfind
          have hd := hwaiting d List.mem_cons_self
          have hvisit := visit_due answers hd.ready hd.find hd.type hd.final
          unfold Visits at hvisit
          rw [visitAll, ← hid]
          split at hvisit
          · rw [hvisit]
            rfl
          · obtain ⟨s₁, hvisit, hvisited⟩ := hvisit
            have hsame : due s₁.repositories d.flow = due s.repositories d.flow :=
              funext (hvisited.due hd d.flow)
            rw [hvisit, ← hsame]
            refine ih fun d' hd' => hvisited.waiting (hwaiting d' ?_)
            rw [hsame] at hd'
            exact List.mem_cons_of_mem d hd'

theorem VisitedAll.due (h : VisitedAll lib answers done s s')
    (hwaiting : ∀ d ∈ done, Waiting lib s.repositories d) (flow : Flow)
    (entry : RBETransactionMonitorEntry) :
    due s'.repositories flow entry =
      ReplaceBrowserExtensionDomainService.due s.repositories flow entry := by
  induction h with
  | nil => rfl
  | @cons d ds _ _ _ _ _ hvisited _ ih =>
      have hd := hwaiting d List.mem_cons_self
      rw [ih fun d' hd' => hvisited.waiting (hwaiting d' (List.mem_cons_of_mem d hd')),
        hvisited.due hd]

/-- What a service has taken care of leaves the other services' work as it was. -/
theorem VisitedAll.dueEntries {flow flow' : Flow} (hflow : flow' ≠ flow)
    (h : VisitedAll lib answers (dueEntries s.repositories flow s.entries) s s')
    (hwaiting : ∀ d ∈ dueEntries s.repositories flow s.entries, Waiting lib s.repositories d) :
    dueEntries s'.repositories flow' s'.entries =
      ReplaceBrowserExtensionDomainService.dueEntries s.repositories flow' s.entries := by
  have : Std.Total fun a b : RBETransactionMonitorEntry => a.createdDate ≤ b.createdDate :=
    ⟨fun a b => le_total a.createdDate b.createdDate⟩
  have : IsTrans RBETransactionMonitorEntry fun a b => a.createdDate ≤ b.createdDate :=
    ⟨fun _ _ _ => le_trans⟩
  have hdue : ReplaceBrowserExtensionDomainService.due s'.repositories flow' =
      ReplaceBrowserExtensionDomainService.due s.repositories flow' :=
    funext (h.due hwaiting flow')
  unfold ReplaceBrowserExtensionDomainService.dueEntries
  rw [h.entries, ← filter_insertionSort, List.filterMap_filter, hdue]
  refine List.filterMap_congr fun e _ => ?_
  split
  · rfl
  · -- the entry was removed, so it was of the other type
    rename_i hremoved
    have hmem : e.transactionID ∈
        (ReplaceBrowserExtensionDomainService.dueEntries s.repositories flow s.entries).map
          (·.tx.id) := by
      simpa using hremoved
    obtain ⟨d, hd, hid⟩ := List.mem_map.mp hmem
    obtain ⟨e', -, hd'⟩ := List.mem_filterMap.mp hd
    obtain ⟨-, hdflow, -⟩ := due_eq_some.mp hd'
    cases hother : ReplaceBrowserExtensionDomainService.due s.repositories flow' e with
    | none => rfl
    | some d' =>
        obtain ⟨hfind, -, htype, -⟩ := due_eq_some.mp hother
        have htx : d.tx = d'.tx :=
          Option.some.inj ((hwaiting d hd).find.symm.trans ((congrArg _ hid).trans hfind))
        have hsame : transactionType flow' = transactionType flow := by
          rw [← htype, ← htx, (hwaiting d hd).type, hdflow]
        exact absurd (transactionType_injective hsame) hflow

theorem visitAll_append (ds ds' : List Due) (s : Monitored) :
    visitAll lib answers (ds ++ ds') s = (do
      match ← visitAll lib answers ds s with
      | (.error e, s) => return (.error e, s)
      | (.ok (), s) => visitAll lib answers ds' s) := by
  induction ds generalizing s with
  | nil => rfl
  | cons d ds ih =>
      rw [List.cons_append, visitAll, visitAll]
      cases postProcess lib d.flow s d.tx.id (answers d.flow d.tx.id) with
      | error trap => rfl
      | ok visited =>
          obtain ⟨result, s₁⟩ := visited
          cases result with
          | error e => rfl
          | ok u => exact ih s₁

/-- The services go through the due transactions. -/
theorem postProcessFlows_eq {flows : List Flow} (hflows : flows.Nodup)
    (hwaiting : ∀ d ∈ dueTransactions s flows, Waiting lib s.repositories d) :
    SynchronisationService.postProcessFlows lib answers flows s =
      (visitAll lib answers (dueTransactions s flows) s).map (·.2) := by
  induction flows generalizing s with
  | nil => rfl
  | cons flow flows ih =>
      obtain ⟨hflow, hflows⟩ := List.nodup_cons.mp hflows
      have hfirst : ∀ d ∈ dueEntries s.repositories flow s.entries,
          Waiting lib s.repositories d :=
        fun d hd => hwaiting d (List.mem_append_left _ hd)
      have hservice : postProcessTransactions lib flow s (answers flow) =
          visitAll lib answers (dueEntries s.repositories flow s.entries) s :=
        postProcessEntries_eq hfirst
      have hall : dueTransactions s (flow :: flows) =
          dueEntries s.repositories flow s.entries ++ dueTransactions s flows := rfl
      obtain ⟨done, s₁, hdone, hcases⟩ := visitAll_cases answers hfirst
      rw [SynchronisationService.postProcessFlows, hservice, hall, visitAll_append]
      rcases hcases with ⟨rfl, hended⟩ | ⟨d, rest, -, -, hstopped⟩
      · have hrest : dueTransactions s₁ flows = dueTransactions s flows := by
          refine List.flatMap_congr fun flow' hflow' => hdone.dueEntries ?_ hfirst
          rintro rfl
          exact hflow hflow'
        rw [hended, ← hrest]
        refine ih hflows fun d hd => hdone.waiting (hwaiting d ?_)
        rw [hrest] at hd
        exact List.mem_append_right _ hd
      · rw [hstopped]
        rfl

/-! ### Who is taken care of -/

/-- The pass has taken care of a due transaction: it was visited between the visits of others,
and its entry is gone. -/
def Handled (lib : ThirdParty) (answers : Flow → TransactionID → Str → Bool) (s s' : Monitored)
    (d : Due) : Prop :=
  (∃ before after s₁ s₂, VisitedAll lib answers before s s₁ ∧ Visited lib d s₁ s₂ ∧
    VisitedAll lib answers after s₂ s') ∧
  ∀ e ∈ s'.entries, e.transactionID ≠ d.tx.id

/-- Nobody is kept waiting by others: from the first visit on that throws, all would throw.
`unreached` are those that the pass does not come to anyway. -/
def NoneBlocked (lib : ThirdParty) (answers : Flow → TransactionID → Str → Bool)
    (unreached : List Due) : List Due → Pairing → Prop
  | [], p => ∀ d ∈ unreached, d.fails lib answers p = true
  | d :: ds, p =>
      if d.fails lib answers p = true then
        ∀ d' ∈ d :: ds ++ unreached, d'.fails lib answers p = true
      else NoneBlocked lib answers unreached ds (d.after lib p)

theorem noneBlocked_append {unreached rest : List Due} (h : VisitedAll lib answers done s s')
    (hwaiting : ∀ d ∈ done, Waiting lib s.repositories d) :
    NoneBlocked lib answers unreached (done ++ rest) (pairing s) ↔
      NoneBlocked lib answers unreached rest (pairing s') := by
  induction h with
  | nil => rfl
  | @cons d ds s₁ s₂ s₃ _ hfails hvisited _ ih =>
      have hd := hwaiting d List.mem_cons_self
      rw [List.cons_append, NoneBlocked, if_neg (by simp [hfails]), ← hvisited.pairing hd]
      exact ih fun d' hd' => hvisited.waiting (hwaiting d' (List.mem_cons_of_mem d hd'))

theorem VisitedAll.split (h : VisitedAll lib answers done s s') (hd : d ∈ done) :
    ∃ before after s₁ s₂, VisitedAll lib answers before s s₁ ∧ Visited lib d s₁ s₂ ∧
      VisitedAll lib answers after s₂ s' := by
  induction h with
  | nil => exact absurd hd List.not_mem_nil
  | @cons d' ds s₁ s₂ s₃ hvisit hfails hvisited hrest ih =>
      rcases List.mem_cons.mp hd with rfl | hd
      · exact ⟨[], ds, s₁, s₂, .nil s₁, hvisited, hrest⟩
      · obtain ⟨before, after, s₄, s₅, hbefore, hd, hafter⟩ := ih hd
        exact ⟨d' :: before, after, s₄, s₅, .cons hvisit hfails hvisited hbefore, hd, hafter⟩

/-- Each transaction is due once. -/
theorem nodup_dueTransactions {flows : List Flow} (hflows : flows.Nodup)
    (hkeys : (s.entries.map (·.transactionID)).Nodup) :
    (dueTransactions s flows).Pairwise fun d d' => d.tx.id ≠ d'.tx.id := by
  refine List.pairwise_flatMap.mpr ⟨fun flow _ => ?_, hflows.imp fun {flow flow'} hne => ?_⟩
  · have hsorted : (s.entries.insertionSort fun a b => a.createdDate ≤ b.createdDate).Pairwise
        fun e e' => e.transactionID ≠ e'.transactionID := by
      have hperm := List.perm_insertionSort
        (fun a b : RBETransactionMonitorEntry => a.createdDate ≤ b.createdDate) s.entries
      exact List.pairwise_map.mp ((hperm.map _).nodup_iff.mpr hkeys)
    refine List.pairwise_filterMap.mpr (hsorted.imp fun hids d hd d' hd' => ?_)
    rw [Repositories.id_of_find (due_eq_some.mp hd).1,
      Repositories.id_of_find (due_eq_some.mp hd').1]
    exact hids
  · -- two services have transactions of different types
    intro d hd d' hd' hid
    obtain ⟨e, -, hd⟩ := List.mem_filterMap.mp hd
    obtain ⟨e', -, hd'⟩ := List.mem_filterMap.mp hd'
    obtain ⟨hfind, -, htype, -⟩ := due_eq_some.mp hd
    obtain ⟨hfind', -, htype', -⟩ := due_eq_some.mp hd'
    have hentry : e.transactionID = e'.transactionID := by
      rw [← Repositories.id_of_find hfind, hid, Repositories.id_of_find hfind']
    have htx : d.tx = d'.tx := Option.some.inj (hfind.symm.trans (hentry ▸ hfind'))
    exact hne (transactionType_injective (by rw [← htype, htx, htype']))

/-- A due transaction that was not visited is still monitored. -/
theorem VisitedAll.not_handled {flows : List Flow} (h : VisitedAll lib answers done s s')
    (hd : d ∈ dueTransactions s flows) (hdone : ∀ d' ∈ done, d'.tx.id ≠ d.tx.id) :
    ¬Handled lib answers s s' d := by
  rintro ⟨-, hentries⟩
  obtain ⟨flow, -, hd⟩ := List.mem_flatMap.mp hd
  obtain ⟨e, he, hd⟩ := List.mem_filterMap.mp hd
  have hid : d.tx.id = e.transactionID := Repositories.id_of_find (due_eq_some.mp hd).1
  refine hentries e ?_ hid.symm
  rw [h.entries, List.mem_filter]
  refine ⟨(List.perm_insertionSort _ _).mem_iff.mp he, decide_eq_true fun hmem => ?_⟩
  obtain ⟨d', hd', hid'⟩ := List.mem_map.mp hmem
  exact hdone d' hd' (hid'.trans hid.symm)

theorem waiting_of_ready {flows : List Flow}
    (hready : ∀ d ∈ dueTransactions s flows, Ready lib s.repositories d)
    (hd : d ∈ dueTransactions s flows) : Waiting lib s.repositories d := by
  obtain ⟨flow, -, hdue⟩ := List.mem_flatMap.mp hd
  obtain ⟨e, -, hdue⟩ := List.mem_filterMap.mp hdue
  obtain ⟨hfind, rfl, htype, hfinal, -⟩ := due_eq_some.mp hdue
  refine ⟨hready d hd, ?_, htype, hfinal⟩
  rwa [Repositories.id_of_find hfind]

/-- The pass takes care of every due transaction whose call would not throw if and only if the
first visit that throws has none of them behind it. -/
theorem postProcessTransactions_handled (accessible : Nat)
    (answers : Flow → TransactionID → Str → Bool)
    (hkeys : (s.entries.map (·.transactionID)).Nodup)
    (hready : ∀ d ∈ dueTransactions s services, Ready lib s.repositories d) :
    ∃ s', SynchronisationService.postProcessTransactions lib s accessible answers = .ok s' ∧
      ((∀ d ∈ dueTransactions s services, d.fails lib answers (pairing s') = false →
          Handled lib answers s s' d) ↔
        NoneBlocked lib answers (dueTransactions s (services.drop accessible))
          (dueTransactions s (services.take accessible)) (pairing s)) := by
  have hservices : services.Nodup := by decide
  have hall : dueTransactions s services = dueTransactions s (services.take accessible) ++
      dueTransactions s (services.drop accessible) := by
    rw [dueTransactions, dueTransactions, dueTransactions, ← List.flatMap_append,
      List.take_append_drop]
  have hwaiting : ∀ d ∈ dueTransactions s (services.take accessible),
      Waiting lib s.repositories d := fun d hd =>
    waiting_of_ready hready (hall ▸ List.mem_append_left _ hd)
  have hnodup := nodup_dueTransactions (s := s) hservices hkeys
  obtain ⟨done, s', hdone, hcases⟩ := visitAll_cases answers hwaiting
  -- `left` are the ones that were not taken care of
  obtain ⟨left, hpass, hleft, hblocked⟩ : ∃ left,
      SynchronisationService.postProcessTransactions lib s accessible answers = .ok s' ∧
      dueTransactions s services = done ++ left ∧
      (NoneBlocked lib answers (dueTransactions s (services.drop accessible))
        (dueTransactions s (services.take accessible)) (pairing s) ↔
          ∀ d ∈ left, d.fails lib answers (pairing s') = true) := by
    have hpass : SynchronisationService.postProcessTransactions lib s accessible answers =
        (visitAll lib answers (dueTransactions s (services.take accessible)) s).map (·.2) :=
      postProcessFlows_eq (hservices.sublist (List.take_sublist accessible services)) hwaiting
    rcases hcases with ⟨htake, hended⟩ | ⟨d, rest, htake, hd, hstopped⟩
    · refine ⟨dueTransactions s (services.drop accessible), by rw [hpass, hended]; rfl, ?_, ?_⟩
      · rw [hall, htake]
      · rw [htake] at hwaiting ⊢
        rw [← List.append_nil done, noneBlocked_append hdone hwaiting, NoneBlocked]
    · refine ⟨d :: rest ++ dueTransactions s (services.drop accessible),
        by rw [hpass, hstopped]; rfl, ?_, ?_⟩
      · rw [hall, htake, List.append_assoc]
      · rw [htake] at hwaiting ⊢
        rw [noneBlocked_append hdone fun d' hd' => hwaiting d' (List.mem_append_left _ hd'),
          NoneBlocked, if_pos hd]
  refine ⟨s', hpass, Iff.trans ⟨fun h d hd => ?_, fun h d hd hfails => ?_⟩ hblocked.symm⟩
  · by_contra hfails
    have hmem : d ∈ dueTransactions s services := by
      rw [hleft]
      exact List.mem_append_right _ hd
    rw [hleft] at hnodup
    refine hdone.not_handled hmem (fun d' hd' => ?_) (h d hmem (Bool.not_eq_true _ ▸ hfails))
    exact (List.pairwise_append.mp hnodup).2.2 d' hd' d hd
  · rw [hleft] at hd
    rcases List.mem_append.mp hd with hd | hd
    · refine ⟨hdone.split hd, fun e he hid => ?_⟩
      rw [hdone.entries, List.mem_filter] at he
      exact of_decide_eq_true he.2 (hid ▸ List.mem_map_of_mem hd)
    · exact absurd (h d hd) (by simp [hfails])

/-! ### Two transactions -/

theorem dueTransactions_twoTransactions :
    dueTransactions twoTransactions services =
      (twoTransactions.repositories.transactions.zip [.replace, .disconnect]).map
        fun (tx, flow) => ⟨flow, tx⟩ := by
  decide +kernel

theorem ready_twoTransactions : ∀ d ∈ dueTransactions twoTransactions services,
    Ready reference twoTransactions.repositories d := by
  have hcontract : contractProxy twoTransactions.repositories = .ok (Address.ofNat 100) := by
    decide +kernel
  have hwallet : ∃ w, findWallet twoTransactions.repositories.wallets ['w'] = some w ∧
      w.state.canChangeOwners = true ∧ ∃ device, w.owner .thisDevice = some device ∧
        (twoTransactions.repositories.privateKey device.address).isSome = true :=
    ⟨readyWallet, rfl, rfl, ⟨Address.ofNat 11, .thisDevice⟩, by decide, by decide⟩
  intro d hd
  rw [dueTransactions_twoTransactions] at hd
  rcases List.mem_pair.mp hd with rfl | rfl
  · exact ⟨hwallet, ⟨_, hcontract⟩, fun data _ => ⟨_, rfl⟩⟩
  · exact ⟨hwallet, ⟨_, hcontract⟩, fun data hdata => nomatch hdata⟩

theorem fails_deleted (d : Due) (p : Pairing) : d.fails lib (fun _ _ _ => true) p = false := by
  simp [Due.fails]

/-- With no failure nobody is blocked. -/
theorem noneBlocked_deleted (ds : List Due) (p : Pairing) :
    NoneBlocked lib (fun _ _ _ => true) [] ds p := by
  induction ds generalizing p with
  | nil => exact fun d hd => absurd hd List.not_mem_nil
  | cons d ds ih =>
      rw [NoneBlocked, if_neg (by simp [fails_deleted])]
      exact ih _

theorem postProcessTransactions_handled_twoTransactions :
    ∃ s', SynchronisationService.postProcessTransactions reference twoTransactions 3
        (fun _ _ _ => true) = .ok s' ∧
      ∀ d ∈ dueTransactions twoTransactions services,
        Handled reference (fun _ _ _ => true) twoTransactions s' d := by
  obtain ⟨s', hpass, hiff⟩ := postProcessTransactions_handled 3 (fun _ _ _ => true)
    (by simp [twoTransactions]) ready_twoTransactions
  have hdrop : dueTransactions twoTransactions (services.drop 3) = [] := rfl
  simp only [hdrop, noneBlocked_deleted, iff_true] at hiff
  exact ⟨s', hpass, fun d hd => hiff d hd (fails_deleted d _)⟩

/-- The old pair of the replacement cannot be deleted, and the pass ends there: the other
transaction stays, although its own call would go through. -/
theorem blocked_twoTransactions :
    (∀ d ∈ dueTransactions twoTransactions services,
        Ready reference twoTransactions.repositories d) ∧
      SynchronisationService.postProcessTransactions reference twoTransactions 3
        (fun flow _ _ => flow ≠ .replace) = .ok twoTransactions ∧
      ∃ d ∈ dueTransactions twoTransactions services,
        d.fails reference (fun flow _ _ => flow ≠ .replace) (pairing twoTransactions) = false ∧
        ¬Handled reference (fun flow _ _ => flow ≠ .replace) twoTransactions twoTransactions d := by
  have hpass : ((SynchronisationService.postProcessTransactions reference twoTransactions 3
      (fun flow _ _ => flow ≠ .replace)).toOption.any fun s => s = twoTransactions) = true := by
    decide +kernel
  obtain ⟨s', hpass, hs'⟩ := exists_ok_of_any hpass
  have hdue : (dueTransactions twoTransactions services).any (fun d =>
      d.fails reference (fun flow _ _ => flow ≠ .replace) (pairing twoTransactions) = false ∧
        d.tx.id = ['d']) = true := by
    decide +kernel
  obtain ⟨d, hd, hfails⟩ := List.any_eq_true.mp hdue
  obtain ⟨hfails, hid⟩ := of_decide_eq_true hfails
  rw [of_decide_eq_true hs'] at hpass
  refine ⟨ready_twoTransactions, hpass, d, hd, hfails, ?_⟩
  rintro ⟨-, hentries⟩
  exact hentries ⟨['d'], 2⟩ (List.mem_cons_of_mem _ List.mem_cons_self) hid.symm

end ReplaceBrowserExtensionDomainService

end MultisigWallet
