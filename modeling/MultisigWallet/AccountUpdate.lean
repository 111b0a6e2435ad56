import MultisigWallet.DBTransactionRepository
import MultisigWallet.Lib.Rows
import MultisigWallet.TokenList

/-!
# MultisigWallet.AccountUpdate

The accounts of the wallets and the refresh of their balances. An account belongs to a token and a
wallet; its identifier is one text, which is split at a colon to get the two back. The table has the
identifiers and the balances, which come back as the numbers that were stored.

`updateAccountsBalances()` makes the accounts that the selected wallet misses and asks the node for
the balances, one account after the other. The node throws where it likes; what was stored until
then stays. In one refresh no question is asked twice, so a node is a function of what it is asked.
-/

namespace MultisigWallet

/-! ### Accounts -/

namespace AccountID

/-- A part of the text of an identifier. -/
def part (id : Str) (index : Nat) : Except Trap Str :=
  match ((Separated.components [':'] id).filter (· ≠ []))[index]? with
  | some part => .ok part
  | none => .error .indexOutOfRange

/-- `tokenID`. -/
def tokenIDOf (id : Str) : Except Trap TokenID := part id 0

/-- `walletID`. -/
def walletIDOf (id : Str) : Except Trap WalletID := part id 1

end AccountID

/-- The `Account` entity, with the text of its identifier. -/
structure Account where
  id : Str
  balance : Option Int
  deriving DecidableEq, Repr

/-- `init(tokenID:walletID:balance:)`. -/
def Account.new (tokenID : TokenID) (walletID : WalletID) (balance : Option Int) : Account :=
  ⟨AccountID.value ⟨tokenID, walletID⟩, balance⟩

/-- The rows of `tbl_accounts`. -/
structure AccountTable where
  rows : List Account
  nodup : (rows.map Account.id).Nodup

namespace DBAccountRepository

/-- `accountFromResultSet(_:)`. -/
def accountFromResultSet (row : Account) : Except Trap Account := do
  let accountID ← AccountID.ofString row.id
  return Account.new accountID.tokenID accountID.walletID row.balance

/-- `find(id:)`. -/
def find (table : AccountTable) (id : Str) : Except Trap (Option Account) :=
  match table.rows.find? (·.id = id) with
  | none => .ok none
  | some row => do return some (← accountFromResultSet row)

/-- `all()`. -/
def all (table : AccountTable) : Except Trap (List Account) := table.rows.mapM accountFromResultSet

/-- `save(_:)`: `INSERT OR REPLACE`. -/
def save (table : AccountTable) (account : Account) : AccountTable where
  rows := Rows.replaced Account.id table.rows account
  nodup := Rows.nodup_replaced Account.id table.nodup rfl

end DBAccountRepository

namespace DBTokenListItemRepository

/-- `paymentTokens()`, in the order of the tokens' codes. -/
def paymentTokens (table : TokenTable) : List TokenListItem :=
  (table.filter (·.canPayTransactionFee)).insertionSort fun a b => ¬ b.token.code < a.token.code

end DBTokenListItemRepository

/-! ### The node -/

/-- The answers of `ethereumNodeService`; `none` where it throws. -/
structure BalanceNode where
  /-- `eth_getBalance(account:)`. -/
  eth_getBalance : Address → Option Int
  /-- `eth_call(to:data:)`. -/
  eth_call : Address → Data → Option Data

/-- `balance(of:)` of the token's contract. -/
def ERC20TokenContractProxy.balance (lib : ThirdParty) (node : BalanceNode)
    (contract address : Address) : Option Int :=
  (node.eth_call contract (EthereumContractProxy.invocation lib "balanceOf(address)"
    [EthereumContractProxy.encodeAddress lib address])).map fun data =>
      (EthereumContractProxy.decodeUInt data : Int)

/-! ### `AccountUpdateDomainService` -/

/-- What a refresh reads. -/
structure RefreshInput where
  /-- `portfolioRepository.portfolio()?.selectedWallet` -/
  selectedWalletID : Option WalletID
  wallets : List Wallet
  tokenItems : TokenTable
  /-- in which order the elements of a set come -/
  setOrder : List TokenID → List TokenID
  mem_setOrder : ∀ ids id, id ∈ setOrder ids ↔ id ∈ ids
  nodup_setOrder : ∀ ids, (setOrder ids).Nodup

/-- What `balance(of:)` came to. -/
inductive BalanceAnswer
  /-- `nil`. -/
  | skipped
  | threw
  | reported (balance : Int)
  deriving DecidableEq, Repr

/-- A question that was asked. -/
def BalanceAnswer.ofNode : Option Int → BalanceAnswer
  | none => .threw
  | some balance => .reported balance

/-- `filter` with a predicate that can trap. -/
def filterEach {α : Type} (p : α → Except Trap Bool) : List α → Except Trap (List α)
  | [] => .ok []
  | a :: as => do
      let kept ← p a
      let rest ← filterEach p as
      return if kept then a :: rest else rest

namespace AccountUpdateDomainService

/-- `walletRepository.selectedWallet()`. -/
def selectedWallet (input : RefreshInput) : Option Wallet :=
  input.selectedWalletID.bind (findWallet input.wallets)

/-- `whitelistedIds + paymentTokensIds`. -/
def watchedIDs (input : RefreshInput) : List TokenID :=
  (DBTokenListItemRepository.whitelisted input.tokenItems).map (·.id) ++
    (DBTokenListItemRepository.paymentTokens input.tokenItems).map (·.id)

/-- `allSelectedWalletAccountsIds()`. -/
def allSelectedWalletAccountsIds (input : RefreshInput) (table : AccountTable) :
    Except Trap (List Str) :=
  match selectedWallet input with
  | none => .ok []
  | some wallet => do
      let accounts ← DBAccountRepository.all table
      let accounts ← filterEach
        (fun account => do return decide ((← AccountID.walletIDOf account.id) = wallet.id)) accounts
      return accounts.map (·.id)

/-- `addMissingAccountsForWhitelistedAndPaymentTokenItems()`. -/
def addMissingAccountsForWhitelistedAndPaymentTokenItems (input : RefreshInput)
    (table : AccountTable) : Except Trap AccountTable :=
  match selectedWallet input with
  | none => .ok table
  | some wallet => do
      let allWalletAccountsIds ← allSelectedWalletAccountsIds input table
      let allWalletAccountsTokensIds ← allWalletAccountsIds.mapM AccountID.tokenIDOf
      let missingAccountsTokensIds :=
        input.setOrder ((watchedIDs input).filter (· ∉ allWalletAccountsTokensIds))
      return missingAccountsTokensIds.foldl (fun table tokenID =>
        DBAccountRepository.save table (Account.new tokenID wallet.id none)) table

variable (lib : ThirdParty) (input : RefreshInput) (node : BalanceNode)

/-- `balance(of:)`. -/
def balance (accountID : Str) : Except Trap BalanceAnswer := do
  let walletID ← AccountID.walletIDOf accountID
  match (findWallet input.wallets walletID).bind (·.address) with
  | none => return .skipped
  | some address => do
      let tokenID ← AccountID.tokenIDOf accountID
      if tokenID = Token.Ether.id then return .ofNode (node.eth_getBalance address)
      else do
        let item ← unwrap "tokenListItemRepository.find(id: accountID.tokenID)"
          (DBTokenListItemRepository.find input.tokenItems tokenID)
        return .ofNode (ERC20TokenContractProxy.balance lib node item.token.address address)

/-- `updateAccountsBalances(_:)`, with whether it returned. -/
def updateBalances : List Str → AccountTable → Except Trap (AccountTable × Bool)
  | [], table => .ok (table, true)
  | accountID :: accountIDs, table => do
      match ← balance lib input node accountID with
      | .skipped => updateBalances accountIDs table
      | .threw => return (table, false)
      | .reported balance => do
          let account ← unwrap "accountRepository.find(id: accountID)"
            (← DBAccountRepository.find table accountID)
          updateBalances accountIDs
            (DBAccountRepository.save table { account with balance := some balance })

/-- `updateBalancesForWhitelistedAndPaymentTokenAccounts()`. -/
def updateBalancesForWhitelistedAndPaymentTokenAccounts (table : AccountTable) :
    Except Trap (AccountTable × Bool) := do
  let allWalletAccountsIds ← allSelectedWalletAccountsIds input table
  let accountsIds ← filterEach
    (fun id => do
      let tokenID ← AccountID.tokenIDOf id
      return decide (tokenID = Token.Ether.id) || (watchedIDs input).contains tokenID)
    allWalletAccountsIds
  updateBalances lib input node accountsIds table

/-- `updateAccountsBalances()`, with whether it returned. Then `AccountsBalancesUpdated` is
published. -/
def updateAccountsBalances (isMainThread : Bool) (table : AccountTable) :
    Except Trap (AccountTable × Bool) := do
  precondition (!isMainThread) "!Thread.isMainThread"
  let table ← addMissingAccountsForWhitelistedAndPaymentTokenItems input table
  updateBalancesForWhitelistedAndPaymentTokenAccounts lib input node table

end AccountUpdateDomainService

end MultisigWallet
