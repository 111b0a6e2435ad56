import MultisigWallet.Lib.Separated
import MultisigWallet.Message
import MultisigWallet.WalletApplication

/-!
# MultisigWallet.DBTransactionRepository

How transactions are stored. A row has twenty-four columns; amounts, signatures and dates are
written into text columns, each in a format of its own. Reading makes a new draft, fills it in
through the methods of `Transaction`, and takes it through the transitions that lead to the
stored status, so all the checks of these methods are made again.

The database returns what was bound: a column is the value itself, or `none` for `NULL`.
-/

namespace MultisigWallet

/-! ### Text formats -/

/-- `AccountID.id`. -/
def AccountID.value (id : AccountID) : Str := id.tokenID ++ ':' :: id.walletID

/-- `AccountID.init(_:)`. `split(separator:)` leaves empty parts out. -/
def AccountID.ofString (id : Str) : Except Trap AccountID :=
  match (Separated.components [':'] id).filter (· ≠ []) with
  | [tokenID, walletID] => .ok ⟨tokenID, walletID⟩
  | _ => .error (.preconditionFailure "Wrong format of AccountID")

namespace Token

/-- `Token.separator`. -/
def separator : Str := ['~', '~', '~']

/-- `serializedStringValue`. -/
def serialized (token : Token) : Str :=
  List.intercalate separator
    [token.code, token.name, stringOfInt token.decimals, token.address.value, token.logoUrl]

/-- `init?(_:)`. -/
def ofSerialized (lib : ThirdParty) (value : Str) : Except Trap (Option Token) :=
  match Separated.components separator value with
  | [code, name, decimals, address, logoUrl] =>
      match intOfString decimals with
      | none => .ok none
      | some decimals => do
          let address ← Address.ofString lib address
          return some ⟨code, name, decimals, address, logoUrl⟩
  | _ => .ok none

end Token

namespace TokenAmount

/-- `TokenAmount.separator`. -/
def separator : Str := ['=', '=', '=']

/-- `serializedStringValue`. -/
def serialized (amount : TokenAmount) : Str :=
  List.intercalate separator [stringOfInt amount.amount, amount.token.serialized]

/-- `init?(_:)`. The number of components is checked last. -/
def ofSerialized (lib : ThirdParty) (value : Str) : Except Trap (Option TokenAmount) :=
  match Separated.components separator value with
  | [] => .error .indexOutOfRange
  | amount :: rest =>
      match lib.bigInt amount 10 with
      | none => .ok none
      | some amount =>
          match rest with
          | [] => .error .indexOutOfRange
          | token :: rest => do
              match ← Token.ofSerialized lib token with
              | none => return none
              | some token => if rest = [] then return some ⟨amount, token⟩ else return none

end TokenAmount

/-- `TransactionType.rawValue`. -/
def TransactionType.rawValue : TransactionType → Int
  | transfer => 0
  | walletRecovery => 1
  | replaceRecoveryPhrase => 2
  | replaceBrowserExtension => 3
  | connectBrowserExtension => 4
  | disconnectBrowserExtension => 5

/-- `TransactionType(rawValue:)`. -/
def TransactionType.ofRawValue (n : Int) : Option TransactionType :=
  [transfer, walletRecovery, replaceRecoveryPhrase, replaceBrowserExtension,
    connectBrowserExtension, disconnectBrowserExtension].find? (·.rawValue = n)

/-- `TransactionStatus.Code.rawValue`. -/
def TransactionStatus.rawValue : TransactionStatus → Int
  | draft => 0
  | signing => 1
  | pending => 2
  | rejected => 3
  | failed => 4
  | success => 5
  | discarded => 6

/-- `TransactionStatus.Code(rawValue:)`. -/
def TransactionStatus.ofRawValue (n : Int) : Option TransactionStatus :=
  [draft, signing, pending, rejected, failed, success, discarded].find? (·.rawValue = n)

/-- `String(_: TimeInterval)` and `TimeInterval(_: String)`: what is printed is read back. -/
structure DateText where
  string : Date → Str
  timeInterval : Str → Option Date
  timeInterval_string : ∀ date, timeInterval (string date) = some date

namespace DBTransactionRepository

/-! ### Rows -/

/-- A row of `tbl_transactions`. -/
structure Row where
  id : Str
  walletID : Str
  accountID : Str
  transactionType : Int
  transactionStatus : Int
  sender : Option Str
  recipient : Option Str
  amount : Option Str
  fee : Option Str
  signatures : Option Str
  createdDate : Option Str
  updatedDate : Option Str
  rejectedDate : Option Str
  submissionDate : Option Str
  processedDate : Option Str
  transactionHash : Option Str
  feeEstimateGas : Option Int
  feeEstimateDataGas : Option Int
  feeEstimateOperationalGas : Option Int
  feeEstimateGasPrice : Option Str
  data : Option Data
  operation : Option Int
  nonce : Option Str
  hash : Option Data
  deriving DecidableEq, Repr

/-- `serialized(signatures:)`. -/
def serializedSignatures (signatures : List Signature) : Str :=
  List.intercalate [';'] (signatures.map fun s => s.address.value ++ ',' :: Bytes.toHex s.data)

variable (lib : ThirdParty) (text : DateText)

/-- A part of the signatures' column. -/
def deserializedSignature (value : Str) : Except Trap (Option Signature) :=
  match Separated.components [','] value with
  | [address, data] => do
      let address ← Address.ofString lib address
      return some ⟨address, lib.dataEthHex data⟩
  | _ => .ok none

/-- `deserialized(signatures:)`. -/
def deserializedSignatures (signatures : Str) : Except Trap (List Signature) := do
  let values ← (Separated.components [';'] signatures).mapM (deserializedSignature lib)
  return values.filterMap id

/-- The bindings of `save(_:)`. -/
def bindings (tx : Transaction) : Row where
  id := tx.id
  walletID := tx.walletID
  accountID := tx.accountID.value
  transactionType := tx.type.rawValue
  transactionStatus := tx.status.rawValue
  sender := tx.sender.map (·.value)
  recipient := tx.recipient.map (·.value)
  amount := tx.amount.map (·.serialized)
  fee := tx.fee.map (·.serialized)
  signatures := some (serializedSignatures tx.signatures)
  createdDate := tx.createdDate.map text.string
  updatedDate := tx.updatedDate.map text.string
  rejectedDate := tx.rejectedDate.map text.string
  submissionDate := tx.submittedDate.map text.string
  processedDate := tx.processedDate.map text.string
  transactionHash := tx.transactionHash.map (·.value)
  feeEstimateGas := tx.feeEstimate.map (·.gas)
  feeEstimateDataGas := tx.feeEstimate.map (·.dataGas)
  feeEstimateOperationalGas := tx.feeEstimate.map (·.operationalGas)
  feeEstimateGasPrice := tx.feeEstimate.map (·.gasPrice.serialized)
  data := tx.data
  operation := tx.operation.map (·.rawValue)
  nonce := tx.nonce
  hash := tx.hash

/-! ### Reading a row -/

/-- A column that may be `NULL`, read by a function that may trap. -/
def read {α β : Type} (f : α → Except Trap β) : Option α → Except Trap (Option β)
  | none => .ok none
  | some a => do return some (← f a)

/-- `if let value = … { transaction.change(…) }`. -/
def changeIfPresent (tx : Transaction) (edit : Option Transaction.Edit) (now : Date) :
    Except Trap Transaction :=
  match edit with
  | none => .ok tx
  | some edit => tx.change edit now

/-- `signatures.forEach { transaction.add(signature: $0) }`. -/
def addSignatures (tx : Transaction) (clock : Clock) : List Signature → Except Trap Transaction
  | [] => .ok tx
  | s :: signatures => do
      let tx ← tx.addSignature s (clock 0)
      addSignatures tx (fun n => clock (n + 1)) signatures

/-- The fee estimate of a row, if all of it is there. -/
def feeEstimate (row : Row) : Except Trap (Option TransactionFeeEstimate) :=
  match row.feeEstimateGas, row.feeEstimateDataGas, row.feeEstimateOperationalGas,
    row.feeEstimateGasPrice with
  | some gas, some dataGas, some operationalGas, some gasPrice => do
      let gasPrice ← TokenAmount.ofSerialized lib gasPrice
      return gasPrice.map fun gasPrice => ⟨gas, dataGas, operationalGas, gasPrice⟩
  | _, _, _, _ => .ok none

/-- `updateRemaining(_:_:)`. -/
def updateRemaining (row : Row) (tx : Transaction) (clock : Clock) : Except Trap Transaction := do
  let estimate ← feeEstimate lib row
  let tx ← changeIfPresent tx (estimate.map fun v => .feeEstimate (some v)) (clock 0)
  let tx ← changeIfPresent tx (row.data.map fun v => .data (some v)) (clock 1)
  let operation := row.operation.bind WalletOperation.ofRawValue
  let tx ← changeIfPresent tx (operation.map fun v => .operation (some v)) (clock 2)
  let tx ← changeIfPresent tx (row.nonce.map fun v => .nonce (some v)) (clock 3)
  changeIfPresent tx (row.hash.map fun v => .hash (some v)) (clock 4)

/-- `transaction.set(hash:)`, if there is one. -/
def setHashIfPresent (tx : Transaction) (hash : Option Str) (now : Date) :
    Except Trap Transaction :=
  match hash with
  | none => .ok tx
  | some hash => tx.setHash ⟨hash⟩ now

/-- `update(_:_:)`, without the dates. -/
def update (row : Row) (tx : Transaction) (clock : Clock) : Except Trap Transaction := do
  let sender ← read (Address.ofString lib) row.sender
  let tx ← changeIfPresent tx (sender.map fun v => .sender (some v)) (clock 0)
  let recipient ← read (Address.ofString lib) row.recipient
  let tx ← changeIfPresent tx (recipient.map fun v => .recipient (some v)) (clock 1)
  let amount ← read (TokenAmount.ofSerialized lib) row.amount
  let tx ← changeIfPresent tx (amount.join.map fun v => .amount (some v)) (clock 2)
  let fee ← read (TokenAmount.ofSerialized lib) row.fee
  let tx ← changeIfPresent tx (fee.join.map fun v => .fee (some v)) (clock 3)
  let signatures ← read (deserializedSignatures lib) row.signatures
  let tx ← addSignatures tx (fun n => clock (n + 20)) (signatures.getD [])
  let tx ← setHashIfPresent tx row.transactionHash (clock 4)
  updateRemaining lib row tx fun n => clock (n + 5)

/-- The transitions from a draft to the stored status. -/
def replay (target : TransactionStatus) (tx : Transaction) (clock : Clock) :
    Except Trap Transaction :=
  match target with
  | .draft => .ok tx
  | .signing => tx.proceed (clock 0) (clock 1)
  | .pending => do
      let tx ← tx.proceed (clock 0) (clock 1)
      tx.proceed (clock 2) (clock 3)
  | .rejected => do
      let tx ← tx.proceed (clock 0) (clock 1)
      tx.reject (clock 2) (clock 3)
  | .failed => do
      let tx ← tx.proceed (clock 0) (clock 1)
      let tx ← tx.proceed (clock 2) (clock 3)
      tx.fail (clock 4) (clock 5)
  | .success => do
      let tx ← tx.proceed (clock 0) (clock 1)
      let tx ← tx.proceed (clock 2) (clock 3)
      tx.succeed (clock 4) (clock 5)
  | .discarded => tx.discard (clock 0)

/-- `Timestamps`. -/
structure Timestamps where
  created : Option Date
  updated : Option Date
  rejected : Option Date
  submitted : Option Date
  processed : Option Date

/-- `fetchTimestamps(_:)`. -/
def fetchTimestamps (row : Row) : Timestamps where
  created := row.createdDate.bind text.timeInterval
  updated := row.updatedDate.bind text.timeInterval
  rejected := row.rejectedDate.bind text.timeInterval
  submitted := row.submissionDate.bind text.timeInterval
  processed := row.processedDate.bind text.timeInterval

/-- `timestamp(_:with:)`. A date that is missing changes nothing. -/
def timestamp (tx : Transaction) (stamps : Timestamps) : Transaction :=
  let tx := stamps.created.elim tx tx.timestampCreated
  let tx := stamps.updated.elim tx tx.timestampUpdated
  let tx := stamps.rejected.elim tx tx.timestampRejected
  let tx := stamps.submitted.elim tx tx.timestampSubmitted
  stamps.processed.elim tx tx.timestampProcessed

/-- `transactionFromResultSet(_:)`. -/
def transactionFromResultSet (row : Row) (clock : Clock) : Except Trap (Option Transaction) :=
  match TransactionType.ofRawValue row.transactionType,
    TransactionStatus.ofRawValue row.transactionStatus with
  | some transactionType, some targetTransactionStatus => do
      let accountID ← AccountID.ofString row.accountID
      let tx := Transaction.new row.id transactionType row.walletID accountID (clock 0) (clock 1)
      let tx ← update lib row tx fun n => clock (n + 8)
      let tx ← replay targetTransactionStatus tx fun n => clock (n + 2)
      return some (timestamp tx (fetchTimestamps text row))
  | _, _ => .ok none

/-! ### The repository -/

/-- `save(_:)`: `INSERT OR REPLACE`. -/
def save (table : List Row) (tx : Transaction) : List Row :=
  table.filter (·.id ≠ tx.id) ++ [bindings text tx]

/-- `find(id:)`. -/
def find (table : List Row) (transactionID : TransactionID) (clock : Clock) :
    Except Trap (Option Transaction) :=
  match table.find? (·.id = transactionID) with
  | none => .ok none
  | some row => transactionFromResultSet lib text row clock

end DBTransactionRepository

end MultisigWallet
