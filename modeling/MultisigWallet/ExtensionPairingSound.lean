import MultisigWallet.ContractRoundTrip
import MultisigWallet.ExtensionPairing
import MultisigWallet.OwnerChangeSound

/-!
# MultisigWallet.ExtensionPairingSound

Which extension is paired, and what the call data says about it, over runs of `estimate` and
`connect`.

The call data names the extension that is paired only if an estimation has not overwritten it, and
the query that a replacement is written with was answered. An extension is forgotten by the address
in the call data; that address is another one after an estimation.
-/

namespace MultisigWallet

namespace ExtensionPairing

open OwnerModificationApplicationService ReplaceBrowserExtensionDomainService
open EthereumContractProxy

/-! ### Reading the new owner back -/

section

variable (lib : ThirdParty)

/-- The new owner of a call that swaps owners, whatever the other two are. -/
theorem newOwner_swapOwner (prev old : Address) {new : Address} (hnew : new.WellFormed) :
    (SafeOwnerManagerContractProxy.decodeSwapOwnerArguments lib
        (SafeOwnerManagerContractProxy.swapOwner lib prev old new)).map
      (fun (_, _, new) => new.value) = some (lowercased new.value) := by
  have hselector := length_method lib "swapOwner(address,address,address)"
  have hdata : SafeOwnerManagerContractProxy.swapOwner lib prev old new =
      method lib "swapOwner(address,address,address)" ++
        Abi.words [Bytes.toNat (lib.dataEthHex prev.value), Bytes.toNat (lib.dataEthHex old.value),
          new.toNat] := by
    refine invocation_eq lib rfl ?_
    rw [encodeAddress_eq lib hnew, encodeAddress, encodeAddress, encodeUInt_eq, encodeUInt_eq]
    rfl
  have hword : Abi.wordAt (SafeOwnerManagerContractProxy.swapOwner lib prev old new) 68 =
      new.toNat := by
    have hskip := Abi.wordAt_drop (SafeOwnerManagerContractProxy.swapOwner lib prev old new) 4 64
    rw [← hskip, hdata, ← hselector, List.drop_left, Abi.words_cons, Abi.words_cons,
      Abi.wordAt_skip _ 32, Abi.wordAt_skip _ 0]
    exact Abi.wordAt_word (hnew.toNat_lt.trans (by decide)) _
  have hcall : IsCallOf (method lib "swapOwner(address,address,address)") 3
      (SafeOwnerManagerContractProxy.swapOwner lib prev old new) := by
    rw [hdata]
    exact isCallOf_words hselector _
  rw [decodeSwapOwnerArguments_eq, if_pos hcall, hword, addressOfUInt_toNat lib hnew]
  rfl

variable {lib} {flow : Flow} {id : TransactionID} {r r' : Repositories} {answer : Option Data}

/-- Whether the extension is listed depends on the selected wallet alone. -/
theorem listsExtension_congr (h : r'.selected = r.selected) :
    listsExtension lib r' answer = listsExtension lib r answer := by
  unfold listsExtension remoteOwnersList ReplaceBrowserExtensionDomainService.getOwners contractProxy
    WalletApplicationService.address
  rw [walletAddress_eq h, h]

/-- An answer is read only with the address of the contract at hand. -/
theorem contractProxy_of_remoteOwnersList {o : Option OwnerLinkedList}
    (h : remoteOwnersList lib r answer = .ok o) : ∃ proxy, contractProxy r = .ok proxy := by
  obtain ⟨owners, howners, -⟩ := bind_ok.mp h
  obtain ⟨proxy, hproxy, -⟩ := bind_ok.mp howners
  exact ⟨proxy, hproxy⟩

/-- A replacement that is written names the new owner, if the owners list the extension. -/
theorem newOwnerOfData_replace {address : Str} {d : Option Data}
    (haddress : (⟨address⟩ : Address).WellFormed)
    (h : realTransactionData lib .replace r address answer = .ok d)
    (hlists : listsExtension lib r answer = true) :
    ∃ data proxy, d = some data ∧ contractProxy r = .ok proxy ∧
      newOwnerOfData lib .replace data = .ok (some (lowercased address)) := by
  obtain ⟨list, hlist, hcontains⟩ := (Option.any_eq_true _ _).mp hlists
  obtain ⟨extension, hextension, hcontains⟩ := (Option.any_eq_true _ _).mp hcontains
  obtain ⟨wallet, hwallet, h⟩ := bind_ok.mp h
  obtain ⟨owner, howner, h⟩ := bind_ok.mp h
  obtain ⟨owner', howner', rfl⟩ := owner_of_address hwallet hextension
  obtain rfl := Option.some.inj ((unwrap_ok.mp howner).symm.trans howner')
  obtain ⟨answered, hanswered, h⟩ := bind_ok.mp h
  obtain ⟨proxy, hproxy⟩ := contractProxy_of_remoteOwnersList hanswered
  rw [hanswered] at hlist
  obtain rfl : answered = some list := hlist
  simp only [hcontains, if_true] at h
  obtain ⟨prevOwner, -, h⟩ := bind_ok.mp h
  obtain ⟨new, hnew, h⟩ := bind_ok.mp h
  obtain rfl := Except.ok.inj h
  obtain rfl := Address.ofString_ok hnew
  exact ⟨_, proxy, rfl, hproxy, congrArg Except.ok (newOwner_swapOwner lib _ _ haddress)⟩

/-- So does an owner that is added. -/
theorem newOwnerOfData_connect {address : Str} {d : Option Data}
    (haddress : (⟨address⟩ : Address).WellFormed)
    (h : realTransactionData lib .connect r address answer = .ok d) :
    ∃ data proxy, d = some data ∧ contractProxy r = .ok proxy ∧
      newOwnerOfData lib .connect data = .ok (some (lowercased address)) := by
  obtain ⟨proxy, hproxy, h⟩ := bind_ok.mp h
  obtain ⟨new, hnew, h⟩ := bind_ok.mp h
  obtain rfl := Except.ok.inj h
  obtain rfl := Address.ofString_ok hnew
  refine ⟨_, proxy, rfl, hproxy, ?_⟩
  have htwo : 2 < 2 ^ 63 := by decide
  unfold newOwnerOfData
  rw [decodeAddOwnerArguments_addOwner lib haddress htwo]
  rfl

/-- The data that is written names the new owner. -/
theorem newOwnerOfData_realTransactionData {address : Str} {d : Option Data}
    (haddress : (⟨address⟩ : Address).WellFormed)
    (h : realTransactionData lib flow r address answer = .ok d)
    (hlists : flow ≠ .connect → listsExtension lib r answer = true) :
    ∃ data proxy, d = some data ∧ contractProxy r = .ok proxy ∧
      newOwnerOfData lib flow data = .ok (some (lowercased address)) := by
  cases flow with
  | replace => exact newOwnerOfData_replace haddress h (hlists (by decide))
  | connect => exact newOwnerOfData_connect haddress h
  | disconnect => exact newOwnerOfData_replace haddress h (hlists (by decide))

/-- After the update the transaction names the new owner. -/
theorem newOwnerAddress_update {address : Str} {clock : Clock}
    (haddress : (⟨address⟩ : Address).WellFormed)
    (h : ReplaceBrowserExtensionDomainService.update lib flow r id address answer clock = .ok r')
    (hlists : flow ≠ .connect → listsExtension lib r answer = true) :
    newOwnerAddress lib flow r' id = .ok (some (lowercased address)) := by
  obtain ⟨tx, tx', r₁, hrow, hw, hsel, hdata, -⟩ := updateData_ok h
  have hselected₁ := selected_eq hw hsel
  have hselected := selected_eq hrow.wallets hrow.selectedWallet
  rw [← listsExtension_congr hselected₁] at hlists
  obtain ⟨data, proxy, hd, hproxy, hread⟩ :=
    newOwnerOfData_realTransactionData haddress hdata hlists
  have hproxy' : contractProxy r' = .ok proxy := by
    rw [← hproxy]
    exact walletAddress_eq (hselected.trans hselected₁.symm)
  unfold newOwnerAddress
  simp only [transaction_ok.mpr hrow.after, hd, hproxy', bind, Except.bind]
  exact hread

end

/-! ### The requests of a connection -/

section

variable {lib : ThirdParty} {flow : Flow} {id : TransactionID} {r : Repositories}
  {code : PairingCode} {answer : Option Data} {deleted paired : Bool}
  {log log' : List (Lease.Event Str)} {result : Except Trap (Except Thrown Str)}

/-- What `pairedAddress` asks for, with all that it has found out by then. -/
inductive Requests (lib : ThirdParty) (flow : Flow) (id : TransactionID) (r : Repositories)
    (code : PairingCode) (answer : Option Data) (deleted paired : Bool) :
    Except Trap (Except Thrown Str) → List (Lease.Event Str) → Prop
  | nothing {result : Except Trap (Except Thrown Str)} (hresult : ∀ new, result ≠ .ok (.ok new)) :
      Requests lib flow id r code answer deleted paired result []
  | deletion {result : Except Trap (Except Thrown Str)} (old : Str)
      (hvalid : isValidated lib r code answer = true)
      (hold : newOwnerAddress lib flow r id = .ok (some old))
      (hresult : ∀ new, result ≠ .ok (.ok new)) :
      Requests lib flow id r code answer deleted paired result
        [.release (lowercased old) deleted]
  | creation (new : Str) (hcode : code.extensionAddress = some new)
      (hvalid : isValidated lib r code answer = true)
      (hold : newOwnerAddress lib flow r id = .ok none)
      (hdecodes : code.decodes = true) (hpaired : paired = true) :
      Requests lib flow id r code answer deleted paired (.ok (.ok new))
        [.acquire (lowercased new)]
  | renewal (old new : Str) (hcode : code.extensionAddress = some new)
      (hvalid : isValidated lib r code answer = true)
      (hold : newOwnerAddress lib flow r id = .ok (some old)) (hdeleted : deleted = true)
      (hdecodes : code.decodes = true) (hpaired : paired = true) :
      Requests lib flow id r code answer deleted paired (.ok (.ok new))
        [.release (lowercased old) deleted, .acquire (lowercased new)]

/-- A pair is deleted if the notification service does so. -/
theorem runFrom_deletePair {address : Str} :
    (∃ trap, (Asking.deletePair r address deleted).runFrom log = (.error trap, log)) ∨
      (Asking.deletePair r address deleted).runFrom log =
        (.ok (if deleted then .ok () else .error .network),
          log ++ [.release (lowercased address) deleted]) := by
  rw [Asking.deletePair, Asking.runFrom_bind, Asking.runFrom_lift]
  unfold WalletApplicationService.deletePair
  cases unwrap "selectedWallet" r.selected with
  | error trap => exact .inl ⟨trap, rfl⟩
  | ok wallet => exact .inr rfl

/-- A pair is created only if the code can be read and the notification service does so. -/
theorem runFrom_createPair {address : Str} :
    (∃ result, (Asking.createPair lib r code address paired).runFrom log = (result, log) ∧
      result ≠ .ok (.ok ())) ∨
      code.decodes = true ∧ paired = true ∧
        (Asking.createPair lib r code address paired).runFrom log =
          (.ok (.ok ()), log ++ [.acquire (lowercased address)]) := by
  rw [Asking.createPair, Asking.runFrom_bind, Asking.runFrom_lift]
  cases hcreated : WalletApplicationService.createPair lib r code paired with
  | error trap => exact .inl ⟨_, rfl, by simp⟩
  | ok created =>
      cases created with
      | error e => exact .inl ⟨_, rfl, by simp⟩
      | ok _ =>
          unfold WalletApplicationService.createPair at hcreated
          split at hcreated
          · rename_i hcode
            obtain ⟨owner, -, hcreated⟩ := bind_ok.mp hcreated
            obtain ⟨owner', -, hcreated⟩ := bind_ok.mp hcreated
            obtain ⟨key, -, hcreated⟩ := bind_ok.mp hcreated
            cases paired with
            | true => exact .inr ⟨hcode.1, rfl, rfl⟩
            | false => cases hcreated
          · cases hcreated

/-- Without a pair to delete, nothing is asked for, or the new pair is created. -/
theorem runFrom_renewPair_none {address : Str} :
    (∃ result, (Asking.renewPair lib r code address none deleted paired).runFrom log =
        (result, log) ∧ ∀ new, result ≠ .ok (.ok new)) ∨
      code.decodes = true ∧ paired = true ∧
        (Asking.renewPair lib r code address none deleted paired).runFrom log =
          (.ok (.ok address), log ++ [.acquire (lowercased address)]) := by
  rw [Asking.renewPair, Asking.runFrom_bind, Asking.deleteOldPair, Asking.runFrom_pure]
  dsimp only
  rw [Asking.runFrom_bind]
  rcases runFrom_createPair with ⟨result, hrun, hresult⟩ | ⟨hdecodes, hpaired, hrun⟩
  · left
    rw [hrun]
    cases result with
    | error trap => exact ⟨_, rfl, by simp⟩
    | ok result =>
        cases result with
        | error e => exact ⟨_, rfl, by simp⟩
        | ok _ => exact absurd rfl hresult
  · right
    rw [hrun]
    exact ⟨hdecodes, hpaired, rfl⟩

/-- With a pair to delete, that comes first. -/
theorem runFrom_renewPair_some {address old : Str} :
    (∃ trap, (Asking.renewPair lib r code address (some old) deleted paired).runFrom log =
        (.error trap, log)) ∨
      deleted = false ∧ (Asking.renewPair lib r code address (some old) deleted paired).runFrom log =
          (.ok (.error .network), log ++ [.release (lowercased old) deleted]) ∨
      deleted = true ∧ (Asking.renewPair lib r code address (some old) deleted paired).runFrom log =
          (Asking.renewPair lib r code address none deleted paired).runFrom
            (log ++ [.release (lowercased old) deleted]) := by
  rw [Asking.renewPair, Asking.runFrom_bind, Asking.deleteOldPair]
  rcases runFrom_deletePair with ⟨trap, hrun⟩ | hrun
  · rw [hrun]
    exact .inl ⟨trap, rfl⟩
  · rw [hrun]
    cases deleted with
    | false => exact .inr (.inl ⟨rfl, rfl⟩)
    | true => exact .inr (.inr ⟨rfl, rfl⟩)

/-- What is asked for past the validation. -/
theorem requests_renewPair {new : Str} {oldPairAddress : Option Str}
    (hcode : code.extensionAddress = some new) (hvalid : isValidated lib r code answer = true)
    (hold : newOwnerAddress lib flow r id = .ok oldPairAddress)
    (h : (Asking.renewPair lib r code new oldPairAddress deleted paired).runFrom log =
      (result, log')) :
    ∃ events, log' = log ++ events ∧
      Requests lib flow id r code answer deleted paired result events := by
  cases oldPairAddress with
  | none =>
      rcases runFrom_renewPair_none with ⟨result', hrun, hresult⟩ | ⟨hdecodes, hpaired, hrun⟩
      · obtain ⟨rfl, rfl⟩ := Prod.mk.inj (hrun.symm.trans h)
        exact ⟨[], by simp, .nothing hresult⟩
      · obtain ⟨rfl, rfl⟩ := Prod.mk.inj (hrun.symm.trans h)
        exact ⟨_, rfl, .creation new hcode hvalid hold hdecodes hpaired⟩
  | some old =>
      rcases runFrom_renewPair_some with ⟨trap, hrun⟩ | ⟨-, hrun⟩ | ⟨hdeleted, hrun⟩
      · obtain ⟨rfl, rfl⟩ := Prod.mk.inj (hrun.symm.trans h)
        exact ⟨[], by simp, .nothing (by simp)⟩
      · obtain ⟨rfl, rfl⟩ := Prod.mk.inj (hrun.symm.trans h)
        exact ⟨_, rfl, .deletion old hvalid hold (by simp)⟩
      · rw [hrun] at h
        rcases runFrom_renewPair_none with ⟨result', hrun, hresult⟩ | ⟨hdecodes, hpaired, hrun⟩
        · obtain ⟨rfl, rfl⟩ := Prod.mk.inj (hrun.symm.trans h)
          exact ⟨_, rfl, .deletion old hvalid hold hresult⟩
        · obtain ⟨rfl, rfl⟩ := Prod.mk.inj (hrun.symm.trans h)
          exact ⟨_, List.append_assoc _ _ _,
            .renewal old new hcode hvalid hold hdeleted hdecodes hpaired⟩

/-- What `pairedAddress` asks for, case by case. -/
theorem runFrom_pairedAddress
    (h : (Asking.pairedAddress lib flow r id code answer deleted paired).runFrom log =
      (result, log')) :
    ∃ events, log' = log ++ events ∧
      Requests lib flow id r code answer deleted paired result events := by
  have hnothing {result' : Except Trap (Except Thrown Str)}
      (h : (result', log) = (result, log')) (hresult : ∀ new, result' ≠ .ok (.ok new)) :
      ∃ events, log' = log ++ events ∧
        Requests lib flow id r code answer deleted paired result events := by
    obtain ⟨rfl, rfl⟩ := Prod.mk.inj h
    exact ⟨[], by simp, .nothing hresult⟩
  rw [Asking.pairedAddress, Asking.runFrom_bind, Asking.runFrom_lift] at h
  cases hcode : code.extensionAddress with
  | none =>
      rw [hcode] at h
      exact hnothing h (by simp)
  | some new =>
      rw [hcode, unwrap_some] at h
      simp only [Asking.runFrom_bind, Asking.runFrom_lift] at h
      cases hvalidated : validateNewOwnerAddress lib r new answer with
      | error trap =>
          rw [hvalidated] at h
          exact hnothing h (by simp)
      | ok validated =>
          rw [hvalidated] at h
          cases validated with
          | error e => exact hnothing h (by simp)
          | ok _ =>
              have hvalid : isValidated lib r code answer = true := by
                simp [isValidated, hcode, hvalidated, Except.toOption]
              simp only [Asking.runFrom_bind, Asking.runFrom_lift] at h
              cases hold : newOwnerAddress lib flow r id with
              | error trap =>
                  rw [hold] at h
                  exact hnothing h (by simp)
              | ok oldPairAddress =>
                  rw [hold] at h
                  exact requests_renewPair hcode hvalid hold h

end

/-! ### One call -/

section

variable {lib : ThirdParty} {flow : Flow} {id : TransactionID} {s t : State}

/-- Nothing was deleted that was not paired, and the call data names what is paired. -/
structure Kept (lib : ThirdParty) (flow : Flow) (id : TransactionID) (s : State) : Prop where
  proper : Lease.Proper s.log
  recordsHeld : RecordsHeld lib flow id s

theorem lowercased_lowercased {address : Str} (h : (⟨address⟩ : Address).WellFormed) :
    lowercased (lowercased address) = lowercased address := by
  have hnormal : (⟨address⟩ : Address).normalized.normalized = (⟨address⟩ : Address).normalized := by
    rw [h.normalized_eq, Address.normalized_ofNat]
  exact congrArg Address.value hnormal

/-- All that is paired is the extension in the call data. -/
theorem RecordsHeld.eq_lowercased (h : RecordsHeld lib flow id s) {address : Option Str}
    (hread : newOwnerAddress lib flow s.repositories id = .ok address) {key : Str}
    (hkey : key ∈ Lease.held s.log) : ∃ old, address = some old ∧ key = lowercased old := by
  obtain ⟨old, hold, rfl⟩ := h.readBack key hkey
  exact ⟨old, Except.ok.inj (hread.symm.trans hold), rfl⟩

theorem RecordsHeld.of_sublist {r : Repositories} {log log' : List (Lease.Event Str)}
    (h : RecordsHeld lib flow id ⟨r, log⟩) (hsub : (Lease.held log').Sublist (Lease.held log)) :
    RecordsHeld lib flow id ⟨r, log'⟩ :=
  ⟨hsub.length_le.trans h.atMostOne, fun key hkey => h.readBack key (hsub.subset hkey)⟩

/-- A new pair that the call data names. -/
theorem recordsHeld_acquire {r : Repositories} {log : List (Lease.Event Str)} {new : Str}
    (hnew : (⟨new⟩ : Address).WellFormed) (hnone : Lease.held log = [])
    (hread : newOwnerAddress lib flow r id = .ok (some (lowercased new))) :
    RecordsHeld lib flow id ⟨r, log ++ [.acquire (lowercased new)]⟩ := by
  have hheld : Lease.held (log ++ [.acquire (lowercased new)]) = [lowercased new] := by
    rw [Lease.held_acquire, hnone, List.nil_append]
  refine ⟨by simp [hheld], ?_⟩
  intro key hkey
  rw [hheld, List.mem_singleton] at hkey
  exact ⟨lowercased new, hread, by rw [hkey, lowercased_lowercased hnew]⟩

/-- A connection asks what `pairedAddress` asks, and then it updates the transaction. -/
theorem request_connect {code : ScannedCode} {validation : Option Data} {deleted paired : Bool}
    {result : Except Trap (Except Thrown Str)} {log' : List (Lease.Event Str)}
    (update : Option Data) (clock : Clock)
    (h : (Asking.pairedAddress lib flow s.repositories id code.1 validation deleted paired).runFrom
      s.log = (result, log')) :
    (request lib flow id s (.connect code validation update deleted paired clock)).2 = log' ∧
      ∀ r', (request lib flow id s (.connect code validation update deleted paired clock)).1 =
          .ok r' →
        ((∀ new, result ≠ .ok (.ok new)) → r' = s.repositories) ∧
          ∀ new, result = .ok (.ok new) →
            ReplaceBrowserExtensionDomainService.update lib flow s.repositories id new update
              clock = .ok r' := by
  simp only [request, Asking.connect, Asking.runFrom_bind, h]
  cases result with
  | error trap => exact ⟨rfl, fun r' hr' => by cases hr'⟩
  | ok result =>
      cases result with
      | error e =>
          refine ⟨rfl, fun r' hr' => ⟨fun _ => (Except.ok.inj hr').symm, ?_⟩⟩
          intro new hnew
          cases hnew
      | ok new =>
          simp only [Asking.runFrom_bind, Asking.runFrom_lift]
          cases hupdate : ReplaceBrowserExtensionDomainService.update lib flow s.repositories id new
            update clock with
          | error trap => exact ⟨rfl, fun r' hr' => by cases hr'⟩
          | ok r =>
              refine ⟨rfl, fun r' hr' => ⟨fun hne => absurd rfl (hne new), ?_⟩⟩
              intro new' hnew'
              obtain rfl := Except.ok.inj (Except.ok.inj hnew')
              rw [← Except.ok.inj hr']
              exact hupdate

/-- What is asked for is in order, also if the app stops then. -/
theorem proper_request (hkept : Kept lib flow id s) {call : Call}
    (hguard : KeepsRecord lib flow id s call) :
    Lease.Proper (request lib flow id s call).2 := by
  cases call with
  | estimate answer relay accounts clock => exact hkept.proper
  | connect code validation update deleted paired clock =>
      cases hrun : (Asking.pairedAddress lib flow s.repositories id code.1 validation deleted
        paired).runFrom s.log with
      | mk result log' =>
          obtain ⟨events, rfl, hrequests⟩ := runFrom_pairedAddress hrun
          rw [(request_connect update clock hrun).1]
          cases hrequests with
          | nothing hresult => simpa using hkept.proper
          | deletion old hvalid hold hresult =>
              have hheld := (hguard hvalid).1 old (by simp [recorded, hold, Except.toOption])
              exact Lease.proper_release.mpr ⟨hkept.proper, hheld⟩
          | creation new hcode hvalid hold hdecodes hpaired =>
              exact Lease.proper_acquire.mpr hkept.proper
          | renewal old new hcode hvalid hold hdeleted hdecodes hpaired =>
              have hheld := (hguard hvalid).1 old (by simp [recorded, hold, Except.toOption])
              rw [List.append_cons, Lease.proper_acquire]
              exact Lease.proper_release.mpr ⟨hkept.proper, hheld⟩

theorem step_ok {call : Call} (h : step lib flow id s call = .ok t) :
    (request lib flow id s call).1 = .ok t.repositories ∧
      (request lib flow id s call).2 = t.log := by
  unfold step at h
  cases hr : (request lib flow id s call).1 with
  | error trap =>
      rw [hr] at h
      cases h
  | ok r =>
      rw [hr] at h
      obtain rfl := Except.ok.inj h
      exact ⟨rfl, rfl⟩

/-- A connection that returns or throws leaves at most one pair, the one in the call data. -/
theorem recordsHeld_connect (hheld : RecordsHeld lib flow id s) {code : ScannedCode}
    {validation update : Option Data} {deleted paired : Bool} {clock : Clock}
    (hguard : KeepsRecord lib flow id s (.connect code validation update deleted paired clock))
    (h : step lib flow id s (.connect code validation update deleted paired clock) = .ok t) :
    RecordsHeld lib flow id t := by
  obtain ⟨hr, hlog⟩ := step_ok h
  obtain ⟨r, log⟩ := t
  cases hrun : (Asking.pairedAddress lib flow s.repositories id code.1 validation deleted
    paired).runFrom s.log with
  | mk result log' =>
      obtain ⟨events, rfl, hrequests⟩ := runFrom_pairedAddress hrun
      obtain ⟨hlog', hends⟩ := request_connect update clock hrun
      obtain rfl := hlog'.symm.trans hlog
      have hends := hends r hr
      cases hrequests with
      | nothing hresult =>
          obtain rfl := hends.1 hresult
          exact hheld.of_sublist (by simp)
      | deletion old hvalid hold hresult =>
          obtain rfl := hends.1 hresult
          refine hheld.of_sublist ?_
          cases deleted with
          | true =>
              rw [Lease.held_released]
              exact List.filter_sublist
          | false =>
              rw [Lease.held_refused]
      | creation new hcode hvalid hold hdecodes hpaired =>
          have hupdate := hends.2 new rfl
          have hnone : Lease.held s.log = [] := by
            rw [List.eq_nil_iff_forall_not_mem]
            intro key hkey
            obtain ⟨old, hsome, -⟩ := hheld.eq_lowercased hold hkey
            cases hsome
          have hlists := fun hflow => (hguard hvalid).2 hflow hdecodes hpaired
            (.inl (by simp [recorded, hold, Except.toOption]))
          exact recordsHeld_acquire (code.2 new hcode) hnone
            (newOwnerAddress_update (code.2 new hcode) hupdate hlists)
      | renewal old new hcode hvalid hold hdeleted hdecodes hpaired =>
          have hupdate := hends.2 new rfl
          have hnone : Lease.held (s.log ++ [.release (lowercased old) true]) = [] := by
            rw [Lease.held_released, List.filter_eq_nil_iff]
            intro key hkey
            obtain ⟨old', hsome, rfl⟩ := hheld.eq_lowercased hold hkey
            obtain rfl := Option.some.inj hsome
            simp
          have hlists := fun hflow => (hguard hvalid).2 hflow hdecodes hpaired (.inr hdeleted)
          rw [List.append_cons, hdeleted]
          exact recordsHeld_acquire (code.2 new hcode) hnone
            (newOwnerAddress_update (code.2 new hcode) hupdate hlists)

theorem kept_step {call : Call} (hguard : KeepsRecord lib flow id s call)
    (hkept : Kept lib flow id s) (h : step lib flow id s call = .ok t) : Kept lib flow id t := by
  have hproper := proper_request hkept hguard
  rw [(step_ok h).2] at hproper
  refine ⟨hproper, ?_⟩
  cases call with
  | estimate answer relay accounts clock =>
      -- no extension is paired, so that no record is overwritten
      have hlog : s.log = t.log := (step_ok h).2
      have hnone : Lease.held t.log = [] := by
        rw [← hlog]
        exact hguard
      exact ⟨by simp [hnone], by simp [hnone]⟩
  | connect code validation update deleted paired clock =>
      exact recordsHeld_connect hkept.recordsHeld hguard h

/-! ### Over runs -/

/-- In every run that keeps the record, what is paired is what the call data names, nothing was
deleted that was not paired, and neither does the next call that is made, even if it stops the
app. -/
theorem run_kept {calls : List Call} (hstart : s.log = [])
    (hall : Transition.Allowed (step lib flow id) (KeepsRecord lib flow id) s calls)
    (hrun : Transition.run (step lib flow id) s calls = .ok t) :
    Kept lib flow id t ∧
      ∀ call, KeepsRecord lib flow id t call → Lease.Proper (request lib flow id t call).2 := by
  have hinit : Kept lib flow id s := by
    refine ⟨?_, ?_, ?_⟩
    · rw [hstart]
      exact Lease.proper_nil
    · simp [hstart]
    · simp [hstart]
  have hkept : Kept lib flow id t := Transition.run_invariant_of_allowed
    (fun _ _ _ hguard hkept hstep => kept_step hguard hkept hstep) hinit hall hrun
  exact ⟨hkept, fun call hguard => proper_request hkept hguard⟩

end

/-! ### A replacement whose fee is estimated first -/

def scannedCode (address : Str) (h : (⟨address⟩ : Address).WellFormed) : ScannedCode :=
  ⟨⟨some address, true⟩, fun a ha => by rw [← Option.some.inj ha]; exact h⟩

def firstCode : ScannedCode :=
  scannedCode "0xA56aE0569C2826A06087161ede0b54f525eaa783".toList
    (Address.wellFormed_of_digits (by decide))

def secondCode : ScannedCode :=
  scannedCode "0xe05fcc23807536bee418f142d19fa0d21bb0cff7".toList
    (Address.wellFormed_of_digits (by decide))

/-- A replacement that was created. -/
def createdReplacement : State where
  repositories := (create .replace replacementFlow.repositories ['t'] fun _ => 0).toOption.getD
    replacementFlow.repositories
  log := []

def estimateCall : Call :=
  .estimate ownersAnswer estimationRelay (fun _ => some (some 1000000)) fun _ => 0

/-- A code is scanned, and the owners are answered twice. -/
def connectCall (code : ScannedCode) : Call :=
  .connect code ownersAnswer ownersAnswer true true fun _ => 0

/-- One extension after the other, without an estimation. -/
theorem run_kept_twice :
    ∃ t, Transition.run (step reference .replace ['t']) createdReplacement
        [connectCall firstCode, connectCall secondCode] = .ok t ∧
      Kept reference .replace ['t'] t ∧
      ∀ call, KeepsRecord reference .replace ['t'] t call →
        Lease.Proper (request reference .replace ['t'] t call).2 := by
  have hboth : Transition.Allowed (step reference .replace ['t'])
      (KeepsRecord reference .replace ['t']) createdReplacement
      [connectCall firstCode, connectCall secondCode] ∧
      (Transition.run (step reference .replace ['t']) createdReplacement
        [connectCall firstCode, connectCall secondCode]).toOption.any (fun _ => true) = true := by
    decide +kernel
  obtain ⟨hall, heval⟩ := hboth
  obtain ⟨t, hrun, -⟩ := exists_ok_of_any heval
  exact ⟨t, hrun, run_kept rfl hall hrun⟩

/-- After an estimation the wallet itself is deleted as an extension; and a pair whose update was not
answered is not in the call data. -/
theorem not_kept_estimated :
    (∃ t, Transition.run (step reference .replace ['t']) createdReplacement
        [estimateCall, connectCall firstCode] = .ok t ∧ ¬ Lease.Proper t.log) ∧
      ∃ t, Transition.run (step reference .replace ['t']) createdReplacement
        [.connect firstCode ownersAnswer none true true fun _ => 0] = .ok t ∧
      ¬ RecordsHeld reference .replace ['t'] t := by
  constructor
  · have heval : (Transition.run (step reference .replace ['t']) createdReplacement
        [estimateCall, connectCall firstCode]).toOption.any (fun t => t.log =
          [.release (lowercased EncryptionService.confirmationSender.value) true,
            .acquire "0xa56ae0569c2826a06087161ede0b54f525eaa783".toList]) = true := by
      decide +kernel
    obtain ⟨t, hrun, hlog⟩ := exists_ok_of_any heval
    refine ⟨t, hrun, ?_⟩
    intro hproper
    have hheld := hproper [] _ _ _ (of_decide_eq_true hlog)
    cases hheld
  · have heval : (Transition.run (step reference .replace ['t']) createdReplacement
        [.connect firstCode ownersAnswer none true true fun _ => 0]).toOption.any (fun t =>
          Lease.held t.log = ["0xa56ae0569c2826a06087161ede0b54f525eaa783".toList] ∧
            recorded reference .replace ['t'] t.repositories = none) = true := by
      decide +kernel
    obtain ⟨t, hrun, ht⟩ := exists_ok_of_any heval
    obtain ⟨hheld, hnone⟩ := of_decide_eq_true ht
    refine ⟨t, hrun, ?_⟩
    intro hrecords
    obtain ⟨address, haddress, -⟩ := hrecords.readBack _ (by rw [hheld]; exact List.mem_cons_self)
    rw [recorded, haddress] at hnone
    cases hnone

end ExtensionPairing

end MultisigWallet
