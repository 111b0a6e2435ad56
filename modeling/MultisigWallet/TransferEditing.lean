import MultisigWallet.Reference
import MultisigWallet.TransactionSound
import MultisigWallet.WalletApplication

/-!
# MultisigWallet.TransferEditing

Editing a draft transfer. Every edit writes the amount and the recipient, and an edit to a token
also writes the data. An edit to Ether leaves the data as it is, so that the data of an earlier edit
to a token stays in the transfer.
-/

namespace MultisigWallet

open WalletApplicationService

/-- A call of `updateTransaction(_:amount:token:recipient:)`, the transaction apart. -/
structure TransferEdit where
  amount : Int
  token : TokenID
  recipient : Str
  clock : Clock

namespace TransferEdit

variable (lib : ThirdParty)

/-- The call on the transaction `id`. -/
def perform (id : TransactionID) (r : Repositories) (e : TransferEdit) : Except Trap Repositories :=
  updateTransaction lib r id e.amount e.token e.recipient e.clock

/-- The token of an edit, if it is in the list. -/
def tokenIn (r : Repositories) (e : TransferEdit) : Option Token := r.tokens.find? (·.id = e.token)

/-- The data an edit leaves, over the data that was there. -/
def dataOver (e : TransferEdit) (token : Token) (recipient : Address) (data : Option Data) :
    Except Trap (Option Data) :=
  if token ≠ Token.Ether then (ERC20TokenContractProxy.transfer lib recipient e.amount).map some
  else .ok data

/-- An edited transaction; data takes one more reading of the clock. -/
def written (e : TransferEdit) (token : Token) (recipient : Address) (data : Option Data)
    (tx : Transaction) : Transaction :=
  { tx with
    amount := some ⟨e.amount, token⟩
    recipient := some recipient
    data := data
    updatedDate := some (e.clock (if token ≠ Token.Ether then 2 else 1)) }

end TransferEdit

/-- What the chain and the user see of a transfer agrees. -/
structure SameTransfer (t u : Transaction) : Prop where
  amount : t.amount = u.amount
  recipient : t.recipient = u.recipient
  data : t.data = u.data
  ethTo : t.ethTo = u.ethTo
  ethValue : t.ethValue = u.ethValue
  ethData : t.ethData = u.ethData

theorem sameTransfer_iff {t u : Transaction} :
    SameTransfer t u ↔ t.amount = u.amount ∧ t.recipient = u.recipient ∧ t.data = u.data := by
  constructor
  · intro h
    exact ⟨h.amount, h.recipient, h.data⟩
  · intro h
    obtain ⟨hamount, hrecipient, hdata⟩ := h
    have hkind : t.isERC20Transfer = u.isERC20Transfer := by
      rw [Transaction.isERC20Transfer, Transaction.isERC20Transfer, hamount]
    exact {
      amount := hamount
      recipient := hrecipient
      data := hdata
      ethTo := by rw [Transaction.ethTo, Transaction.ethTo, hkind, hamount, hrecipient]
      ethValue := by rw [Transaction.ethValue, Transaction.ethValue, hkind, hamount]
      ethData := by rw [Transaction.ethData, Transaction.ethData, hdata] }

variable {lib : ThirdParty} {id : TransactionID} {r r' : Repositories} {tx : Transaction}
  {e : TransferEdit}

/-! ### One edit -/

theorem dataOver_eq_none {token : Token} {recipient : Address} {data data' : Option Data}
    (h : e.dataOver lib token recipient data = .ok data') :
    data' = none ↔ token = Token.Ether ∧ data = none := by
  unfold TransferEdit.dataOver at h
  by_cases hether : token = Token.Ether
  · rw [if_neg (not_not.mpr hether)] at h
    rw [← Except.ok.inj h, and_iff_right hether]
  · rw [if_pos hether] at h
    cases htransfer : ERC20TokenContractProxy.transfer lib recipient e.amount with
    | error error =>
        rw [htransfer] at h
        cases h
    | ok d =>
        rw [htransfer] at h
        rw [← Except.ok.inj h]
        simp [hether]

/-- An edit finds the token, reads the recipient, makes the data, and writes all three. -/
theorem perform_ok (hfind : r.find id = some tx) (hdraft : tx.status = .draft) :
    e.perform lib id r = .ok r' ↔
      ∃ token recipient data, e.tokenIn r = some token ∧
        Address.ofString lib e.recipient = .ok recipient ∧
        e.dataOver lib token recipient tx.data = .ok data ∧
        r.save (e.written token recipient data tx) = r' := by
  unfold TransferEdit.perform updateTransaction TransferEdit.dataOver
  rw [hfind]
  change _ ↔ ∃ token recipient data, r.tokens.find? (·.id = e.token) = some token ∧ _
  cases r.tokens.find? (·.id = e.token) with
  | none => simp [unwrap, bind, Except.bind]
  | some token =>
      cases Address.ofString lib e.recipient with
      | error error => simp [Transaction.change_draft, hdraft, bind, Except.bind]
      | ok recipient =>
          by_cases hether : token = Token.Ether
          · simp [hether, Transaction.change_draft, hdraft, Transaction.assign,
              Transaction.timestampUpdated, TransferEdit.written, bind, Except.bind, pure, Except.pure]
          · cases htransfer : ERC20TokenContractProxy.transfer lib recipient e.amount with
            | error error =>
                simp [htransfer, hether, Transaction.change_draft, hdraft, Transaction.assign,
                  Transaction.timestampUpdated, Except.map, bind, Except.bind]
            | ok data =>
                simp [htransfer, hether, Transaction.change_draft, hdraft, Transaction.assign,
                  Transaction.timestampUpdated, TransferEdit.written, Except.map, bind, Except.bind,
                  pure, Except.pure]

theorem find_written (hfind : r.find id = some tx) (token : Token) (recipient : Address)
    (data : Option Data) :
    (r.save (e.written token recipient data tx)).find id =
      some (e.written token recipient data tx) := by
  have hid : tx.id = id := Repositories.id_of_find hfind
  rw [← hid]
  exact Repositories.find_save r (e.written token recipient data tx)

/-! ### Editing again and again -/

/-- A draft stays a draft, and it has no data as long as only Ether is sent. -/
theorem run_perform {es : List TransferEdit} (hfind : r.find id = some tx)
    (hdraft : tx.status = .draft) (h : Transition.run (fun r e => e.perform lib id r) r es = .ok r') :
    r'.tokens = r.tokens ∧ ∃ tx', r'.find id = some tx' ∧ tx'.status = .draft ∧
      (tx'.data = none ↔ tx.data = none ∧ ∀ e ∈ es, e.tokenIn r = some Token.Ether) := by
  induction es generalizing r tx with
  | nil =>
      obtain rfl := Except.ok.inj h
      exact ⟨rfl, tx, hfind, hdraft, by simp⟩
  | cons e es ih =>
      obtain ⟨u, hstep, hrest⟩ := Transition.run_cons_ok.mp h
      obtain ⟨token, recipient, data, htoken, -, hdata, rfl⟩ := (perform_ok hfind hdraft).mp hstep
      obtain ⟨htokens, tx', htx', hdraft', hnone⟩ :=
        ih (find_written hfind token recipient data) hdraft hrest
      refine ⟨htokens, tx', htx', hdraft', hnone.trans ?_⟩
      have hwritten : (e.written token recipient data tx).data = none ↔
          token = Token.Ether ∧ tx.data = none := dataOver_eq_none hdata
      have hkept : ∀ e' : TransferEdit,
          e'.tokenIn (r.save (e.written token recipient data tx)) = e'.tokenIn r := fun _ => rfl
      simp only [hwritten, hkept, List.forall_mem_cons, htoken, Option.some.injEq]
      constructor
      · intro h
        exact ⟨h.1.2, h.1.1, h.2⟩
      · intro h
        exact ⟨⟨h.2.1, h.1⟩, h.2.2⟩

/-- After `es` and the edit `last`, the transfer is what `last` alone makes of the draft. -/
def LastWins (lib : ThirdParty) (id : TransactionID) (r : Repositories) (last : TransferEdit)
    (r' : Repositories) : Prop :=
  ∃ r'' t u, last.perform lib id r = .ok r'' ∧ r'.find id = some t ∧ r''.find id = some u ∧
    SameTransfer t u

/-- A new draft has no amount, no recipient and no data. -/
theorem find_created {r₀ : Repositories} {clock : Clock}
    (h : createNewDraftTransaction r₀ id clock = .ok r) :
    ∃ tx, r.find id = some tx ∧ tx.status = .draft ∧ tx.data = none := by
  unfold createNewDraftTransaction newDraftTransaction at h
  obtain ⟨w, -, h⟩ := bind_ok.mp h
  obtain ⟨sender, -, h⟩ := bind_ok.mp h
  obtain ⟨tx, htx, h⟩ := bind_ok.mp h
  obtain rfl := Except.ok.inj h
  obtain ⟨-, rfl⟩ := Transaction.change_ok.mp htx
  exact ⟨_, Repositories.find_save r₀ _, rfl, rfl⟩

/-! ### A token and then Ether -/

/-- A list with Ether and one token. -/
def tokenRepositories : Repositories where
  transactions := []
  wallets := [{ id := ['w'], state := .readyToUse, owners := ⟨[], by decide⟩, address := some Address.two }]
  selectedWallet := some ['w']
  tokens := [Token.Ether, ⟨['T'], ['T'], 18, Address.two, []⟩]
  externallyOwnedAccounts := []

/-- Five units of a token. -/
def sendFive (token : TokenID) : TransferEdit := ⟨5, token, Address.two.value, fun _ => 0⟩

/-- A new draft, and what is left of it after two edits. -/
def editedTwice (first second : TokenID) : Except Trap (Repositories × Repositories) := do
  let r ← createNewDraftTransaction tokenRepositories ['t'] fun _ => 0
  let r' ← Transition.run (fun r e => TransferEdit.perform reference ['t'] r e) r
    ([sendFive first] ++ [sendFive second])
  return (r, r')

theorem editedTwice_ok {first second : TokenID} {r r' : Repositories}
    (h : editedTwice first second = .ok (r, r')) :
    createNewDraftTransaction tokenRepositories ['t'] (fun _ => 0) = .ok r ∧
      Transition.run (fun r e => TransferEdit.perform reference ['t'] r e) r
        ([sendFive first] ++ [sendFive second]) = .ok r' := by
  obtain ⟨_, hcreate, h⟩ := bind_ok.mp h
  obtain ⟨_, hrun, h⟩ := bind_ok.mp h
  obtain ⟨rfl, rfl⟩ := Prod.mk.inj (Except.ok.inj h)
  exact ⟨hcreate, hrun⟩

end MultisigWallet
