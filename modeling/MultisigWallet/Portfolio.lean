import MultisigWallet.Lib.Separated
import MultisigWallet.Lib.Transition
import MultisigWallet.Base

/-!
# MultisigWallet.Portfolio

The user's wallets, one of which is selected. The portfolio is stored in one row: the wallet
identifiers are joined by commas into one text, and reading adds the pieces of the text to an
empty portfolio, one after the other, before it selects the stored selection.

The database returns what was bound; a missing selection is `NULL`.
-/

namespace MultisigWallet

abbrev PortfolioID := BaseID

/-- The `Portfolio` entity. -/
structure Portfolio where
  id : PortfolioID
  selectedWallet : Option WalletID := none
  wallets : List WalletID := []
  deriving DecidableEq, Repr

namespace Portfolio

/-- `addWallet(_:)`; the first wallet is selected. -/
def addWallet (p : Portfolio) (wallet : WalletID) : Except Trap Portfolio := do
  precondition (!p.wallets.contains wallet) "walletAlreadyExists"
  return { p with
    selectedWallet := if p.wallets.isEmpty then some wallet else p.selectedWallet
    wallets := p.wallets ++ [wallet] }

/-- `removeWallet(_:)`. -/
def removeWallet (p : Portfolio) (wallet : WalletID) : Except Trap Portfolio := do
  let index ← unwrap "wallets.firstIndex(of: wallet)" (p.wallets.idxOf? wallet)
  let wallets := p.wallets.eraseIdx index
  return { p with
    wallets
    selectedWallet := if wallets.isEmpty then none else p.selectedWallet }

/-- `selectWallet(_:)`. -/
def selectWallet (p : Portfolio) (wallet : WalletID) : Except Trap Portfolio := do
  precondition (p.wallets.contains wallet) "walletNotFound"
  return { p with selectedWallet := some wallet }

/-- `wallets.forEach { addWallet($0) }`. -/
def addWallets (p : Portfolio) : List WalletID → Except Trap Portfolio
  | [] => .ok p
  | wallet :: wallets => do
      let p ← p.addWallet wallet
      p.addWallets wallets

/-- `init(id:wallets:selectedWallet:)`. -/
def new (id : PortfolioID) (wallets : List WalletID) (selectedWallet : Option WalletID) :
    Except Trap Portfolio := do
  let p ← ({ id } : Portfolio).addWallets wallets
  match selectedWallet with
  | none => return p
  | some selectedWallet => p.selectWallet selectedWallet

/-- The calls that change a portfolio. -/
inductive Call
  | addWallet (wallet : WalletID)
  | removeWallet (wallet : WalletID)
  | selectWallet (wallet : WalletID)
  deriving DecidableEq, Repr

/-- One of them. -/
def step (p : Portfolio) : Call → Except Trap Portfolio
  | .addWallet wallet => p.addWallet wallet
  | .removeWallet wallet => p.removeWallet wallet
  | .selectWallet wallet => p.selectWallet wallet

end Portfolio

namespace WalletIDList

def separator : Str := [',']

/-- `serializedValue`. -/
def serialized (wallets : List WalletID) : Str := List.intercalate separator wallets

/-- `init(serializedString:)`. -/
def ofSerialized (serializedString : Str) : List WalletID :=
  Separated.components separator serializedString

end WalletIDList

namespace DBSinglePortfolioRepository

/-- A row of `tbl_portfolios`. -/
structure Row where
  id : Str
  wallets : Str
  selectedWallet : Option Str
  deriving DecidableEq, Repr

/-- `insertionBindings(_:)`. -/
def insertionBindings (p : Portfolio) : Row where
  id := p.id
  wallets := WalletIDList.serialized p.wallets
  selectedWallet := p.selectedWallet

/-- `objectFromResultSet(_:)`. -/
def objectFromResultSet (row : Row) : Except Trap Portfolio :=
  Portfolio.new row.id (WalletIDList.ofSerialized row.wallets) row.selectedWallet

/-- `save(_:)`: `INSERT OR REPLACE`. -/
def save (table : List Row) (p : Portfolio) : List Row :=
  table.filter (·.id ≠ p.id) ++ [insertionBindings p]

/-- What the row that was looked for stands for. -/
def object : Option Row → Except Trap (Option Portfolio)
  | none => .ok none
  | some row => do return some (← objectFromResultSet row)

/-- `find(id:)`. -/
def find (table : List Row) (id : PortfolioID) : Except Trap (Option Portfolio) :=
  object (table.find? (·.id = id))

/-- `portfolio()`: the first row, by `rowid`. -/
def portfolio (table : List Row) : Except Trap (Option Portfolio) := object table.head?

end DBSinglePortfolioRepository

end MultisigWallet
