import MultisigWallet.Base
import Mathlib.Data.List.Sort

/-!
# MultisigWallet.TokenList

The tokens the app knows and the order in which the whitelisted ones are shown. The order is
kept in the items themselves, as a sorting identifier that a hook assigns when an item is saved
and that only whitelisted items are meant to have.

Items come from the server, which says which tokens are shown by default, and from the user, who
whitelists, blacklists and rearranges tokens. A repository hands out copies, and `ORDER BY` puts
a missing sorting identifier first.
-/

namespace MultisigWallet

/-- `TokenListItem.TokenListItemStatus`. -/
inductive TokenListItemStatus
  | regular
  | whitelisted
  | blacklisted
  deriving DecidableEq, Repr

/-- The `TokenListItem` entity, without the date of its last update. -/
structure TokenListItem where
  token : Token
  status : TokenListItemStatus
  canPayTransactionFee : Bool
  sortingId : Option Int := none
  deriving DecidableEq, Repr

namespace TokenListItem

/-- The identifier of an item is that of its token. -/
def id (item : TokenListItem) : TokenID := item.token.id

/-- `updateSortingId(with:)`. -/
def updateSortingId (item : TokenListItem) (id : Option Int) : TokenListItem :=
  { item with sortingId := id }

end TokenListItem

/-- A token in the server's list. -/
structure ListedToken where
  token : Token
  isDefault : Bool
  canPayTransactionFee : Bool
  deriving DecidableEq, Repr

/-- `TokenListItem.init(from:)`. -/
def ListedToken.item (t : ListedToken) : TokenListItem where
  token := t.token
  status := if t.isDefault then .whitelisted else .regular
  canPayTransactionFee := t.canPayTransactionFee

/-- The rows of `tbl_token_list_items`. -/
abbrev TokenTable := List TokenListItem

namespace DBTokenListItemRepository

/-! ### The repository -/

/-- What `find(id:)` returns for Ether. -/
def etherItem : TokenListItem where
  token := Token.Ether
  status := .whitelisted
  canPayTransactionFee := true

/-- `find(id:)`. -/
def find (table : TokenTable) (id : TokenID) : Option TokenListItem :=
  if id = Token.Ether.id then some etherItem else table.find? (·.id = id)

/-- The order of a column that may be `NULL`. -/
def columnLE : Option Int → Option Int → Bool
  | none, _ => true
  | some _, none => false
  | some a, some b => decide (a ≤ b)

/-- `whitelisted()`: `ORDER BY sorting_id`. -/
def whitelisted (table : TokenTable) : List TokenListItem :=
  (table.filter (·.status = .whitelisted)).insertionSort fun a b => columnLE a.sortingId b.sortingId

/-- `prepareToSave(_:)`. -/
def prepareToSave (table : TokenTable) (item : TokenListItem) : Except Trap TokenListItem :=
  if (find table item.id).any (·.status = .whitelisted) then
    if item.status ≠ .whitelisted then .ok (item.updateSortingId none) else .ok item
  else if item.status = .whitelisted then do
    let lastWhitelistedId := ((whitelisted table).getLast?.bind (·.sortingId)).getD (-1)
    let sortingId ← addInt lastWhitelistedId 1
    return item.updateSortingId (some sortingId)
  else .ok item

/-- `super.save(_:)`: `INSERT OR REPLACE`. -/
def replaceRow (table : TokenTable) (item : TokenListItem) : TokenTable :=
  table.filter (·.id ≠ item.id) ++ [item]

/-- `save(_:)`. -/
def save (table : TokenTable) (item : TokenListItem) : Except Trap TokenTable := do
  let item ← prepareToSave table item
  return replaceRow table item

/-- `items.forEach { save($0) }`. -/
def saveAll (table : TokenTable) : List TokenListItem → Except Trap TokenTable
  | [] => .ok table
  | item :: items => do
      let table ← save table item
      saveAll table items

/-! ### What the user does -/

/-- The item that `whitelist(_:)` and `blacklist(_:)` make: a new one, with the token's stored
ability to pay fees. -/
def relisted (existing : TokenListItem) (token : Token) (status : TokenListItemStatus) :
    TokenListItem where
  token := token
  status := status
  canPayTransactionFee := existing.canPayTransactionFee

/-- `whitelist(_:)`. -/
def whitelist (table : TokenTable) (token : Token) : Except Trap TokenTable := do
  let existing ← unwrap "find(id: token.id)" (find table token.id)
  save table (relisted existing token .whitelisted)

/-- `blacklist(_:)`. -/
def blacklist (table : TokenTable) (token : Token) : Except Trap TokenTable := do
  let existing ← unwrap "find(id: token.id)" (find table token.id)
  save table (relisted existing token .blacklisted)

/-- The loop of `rearrange(tokens:)`. The items of `shown` are objects, so what is assigned to
one of them is seen when its token comes up again. -/
def rearrangeFrom (table : TokenTable) (shown : List TokenListItem) (index : Nat) :
    List Token → Except Trap TokenTable
  | [] => .ok table
  | token :: tokens =>
      match shown.find? (·.id = token.id) with
      | none => rearrangeFrom table shown (index + 1) tokens
      | some item =>
          if item.sortingId = some (index : Int) then rearrangeFrom table shown (index + 1) tokens
          else do
            let moved := item.updateSortingId (some (index : Int))
            let table ← save table moved
            rearrangeFrom table (shown.map fun i => if i.id = item.id then moved else i) (index + 1)
              tokens

/-- `rearrange(tokens:)`. An inconsistent list is reported and used all the same. -/
def rearrange (table : TokenTable) (tokens : List Token) : Except Trap TokenTable :=
  rearrangeFrom table (whitelisted table) 0 tokens

end DBTokenListItemRepository

/-- `TokenData.isEther`. -/
def Token.isEther (token : Token) : Bool :=
  token.address.value = hexMark ++ ['0'] ∨ token.address.value = Token.Ether.id

/-- `WalletApplicationService.changePaymentToken(_:)`, without the change to the wallet. -/
def WalletApplicationService.changePaymentToken (table : TokenTable) (token : Token) :
    Except Trap TokenTable :=
  if token.isEther then .ok table else DBTokenListItemRepository.whitelist table token

namespace TokenListMerger

open DBTokenListItemRepository

/-- `deleteStoredTokenItemsThatAreNotInList(_:)`. -/
def deleteStoredTokenItemsThatAreNotInList (table : TokenTable) (tokenList : List TokenListItem) :
    TokenTable :=
  table.filter fun item => item.status = .whitelisted ∨ item.id ∈ tokenList.map (·.id)

/-- The stored item that keeps its status when `latestItem` is merged. -/
def itemToUpdate (table : TokenTable) (latestItem : TokenListItem) : Option TokenListItem :=
  (table.filter fun item => item.status = .whitelisted ∨ item.status = .blacklisted).find?
    (·.id = latestItem.id)

/-- The item `updateTokenItemWithTokenInfoOnly(_:with:)` saves. -/
def updatedItem (item latestItem : TokenListItem) : TokenListItem where
  token := latestItem.token
  status := item.status
  canPayTransactionFee := latestItem.canPayTransactionFee
  sortingId := item.sortingId

/-- What `updateWhitelistedAndBlacklistedTokenItems(with:)` saves. -/
def updatedItems (table : TokenTable) (tokenList : List TokenListItem) : List TokenListItem :=
  tokenList.filterMap fun latestItem =>
    (itemToUpdate table latestItem).map fun item => updatedItem item latestItem

/-- What it returns. -/
def remainingTokenItems (table : TokenTable) (tokenList : List TokenListItem) :
    List TokenListItem :=
  tokenList.filter fun latestItem => (itemToUpdate table latestItem).isNone

/-- `mergeStoredTokenItems(with:)`. -/
def mergeStoredTokenItems (table : TokenTable) (tokenList : List TokenListItem) :
    Except Trap TokenTable := do
  let stored := deleteStoredTokenItemsThatAreNotInList table tokenList
  let table ← saveAll stored (updatedItems stored tokenList)
  saveAll table (remainingTokenItems stored tokenList)

end TokenListMerger

/-! ### Calls -/

/-- The calls that change the token list. The server's list is without Ether. -/
inductive TokenCall
  | merge (tokenList : List ListedToken) (noEther : ∀ t ∈ tokenList, t.token.id ≠ Token.Ether.id)
  | whitelist (token : Token)
  | blacklist (token : Token)
  | changePaymentToken (token : Token)
  | rearrange (tokens : List Token)

/-- One of them. -/
def TokenCall.step (table : TokenTable) : TokenCall → Except Trap TokenTable
  | .merge tokenList _ => TokenListMerger.mergeStoredTokenItems table (tokenList.map (·.item))
  | .whitelist token => DBTokenListItemRepository.whitelist table token
  | .blacklist token => DBTokenListItemRepository.blacklist table token
  | .changePaymentToken token => WalletApplicationService.changePaymentToken table token
  | .rearrange tokens => DBTokenListItemRepository.rearrange table tokens

end MultisigWallet
