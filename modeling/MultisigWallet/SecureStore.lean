import MultisigWallet.RecoveryService

/-!
# MultisigWallet.SecureStore

Where private keys are kept. `SecureExternallyOwnedAccountRepository` writes an account as a
property list under its address, into the `SecureStore` that `KeychainService` makes of the
keychain of the device. The keychain belongs to everyone: its items are told apart by the service
they are of and by the account they are for, and adding an item that is there already is an error.

The system may refuse any call, for instance while the device is locked. The repository calls the
store with `try!`.
-/

namespace MultisigWallet

/-! ### The keychain -/

abbrev OSStatus := Int

def errSecDuplicateItem : OSStatus := -25299
def errSecItemNotFound : OSStatus := -25300

/-- An item of class `kSecClassGenericPassword`. -/
structure KeychainItem where
  /-- `kSecAttrService`. -/
  service : Str
  /-- `kSecAttrAccount`. -/
  account : Str
  /-- `kSecValueData`. -/
  data : Data
  deriving DecidableEq, Repr

/-- A status that says nothing about the items. -/
structure Refusal where
  status : OSStatus
  status_ne : status ≠ errSecItemNotFound
  deriving DecidableEq

abbrev Keychain := List KeychainItem

namespace Keychain

/-- A call that the system may refuse. -/
def answer {α : Type} (refusal : Option Refusal) (result : Except OSStatus α) : Except OSStatus α :=
  match refusal with
  | some refusal => .error refusal.status
  | none => result

/-- `SecItemAdd`. -/
def SecItemAdd (k : Keychain) (item : KeychainItem) : Except OSStatus Keychain :=
  if k.any (fun i => i.service = item.service && i.account = item.account) then
    .error errSecDuplicateItem
  else .ok (k ++ [item])

/-- `SecItemCopyMatching`, of one item. -/
def SecItemCopyMatching (k : Keychain) (query : KeychainItem → Bool) :
    Except OSStatus KeychainItem :=
  match k.find? query with
  | some item => .ok item
  | none => .error errSecItemNotFound

/-- `SecItemDelete`, of all the items there are. -/
def SecItemDelete (k : Keychain) (query : KeychainItem → Bool) : Except OSStatus Keychain :=
  if k.any query then .ok (k.filter (!query ·)) else .error errSecItemNotFound

end Keychain

/-! ### The store -/

inductive KeychainError
  /-- Of the status, the source has the text that the system has for it. -/
  | unhandledError (status : OSStatus)
  deriving DecidableEq, Repr

structure KeychainService where
  serviceIdentifier : Str
  deriving DecidableEq, Repr

namespace KeychainService

variable (s : KeychainService) (k : Keychain) (refusal : Option Refusal)

/-- `add(query:)`. -/
def add (item : KeychainItem) : Except KeychainError Keychain :=
  match Keychain.answer refusal (k.SecItemAdd item) with
  | .ok k => .ok k
  | .error status => .error (.unhandledError status)

/-- `get(query:)`. -/
def get (query : KeychainItem → Bool) : Except KeychainError (Option KeychainItem) :=
  match Keychain.answer refusal (k.SecItemCopyMatching query) with
  | .ok item => .ok (some item)
  | .error status =>
      if status = errSecItemNotFound then .ok none else .error (.unhandledError status)

/-- `remove(query:)`. -/
def remove (query : KeychainItem → Bool) : Except KeychainError Keychain :=
  match Keychain.answer refusal (k.SecItemDelete query) with
  | .ok k => .ok k
  | .error status =>
      if status = errSecItemNotFound then .ok k else .error (.unhandledError status)

/-- The items of this service for a key. -/
def isFor (key : Str) (item : KeychainItem) : Bool :=
  item.service = s.serviceIdentifier && item.account = key

/-- `save(data:forKey:)`. -/
def save (data : Data) (key : Str) : Except KeychainError Keychain :=
  add k refusal ⟨s.serviceIdentifier, key, data⟩

/-- `data(forKey:)`. -/
def data (key : Str) : Except KeychainError (Option Data) := do
  return (← get k refusal (s.isFor key)).map (·.data)

/-- `removeData(forKey:)`. -/
def removeData (key : Str) : Except KeychainError Keychain := remove k refusal (s.isFor key)

/-- `destroy()`. -/
def destroy : Except KeychainError Keychain :=
  remove k refusal fun item => item.service = s.serviceIdentifier

end KeychainService

/-! ### The repository -/

/-- `ExternallyOwnedAccountPersistedData`. -/
structure ExternallyOwnedAccountPersistedData where
  address : Str
  mnemonic : List Str
  privateKey : Data
  publicKey : Data
  derivedIndex : Int
  deriving DecidableEq, Repr

/-- `PropertyListEncoder` and `PropertyListDecoder`: what is encoded is decoded again. -/
structure AccountCoder where
  encode : ExternallyOwnedAccountPersistedData → Data
  decode : Data → Option ExternallyOwnedAccountPersistedData
  decode_encode : ∀ d, decode (encode d) = some d

/-- An account of the recovery phrase or derived from it, with all its keys. -/
structure KeyAccount where
  address : Address
  mnemonic : List Str
  privateKey : Data
  publicKey : Data
  derivedIndex : Int
  deriving DecidableEq, Repr

namespace KeyAccount

def dataStruct (a : KeyAccount) : ExternallyOwnedAccountPersistedData :=
  ⟨a.address.value, a.mnemonic, a.privateKey, a.publicKey, a.derivedIndex⟩

/-- `init(dataStruct:)`. -/
def ofDataStruct (lib : ThirdParty) (d : ExternallyOwnedAccountPersistedData) :
    Except Trap KeyAccount := do
  return ⟨← Address.ofString lib d.address, d.mnemonic, d.privateKey, d.publicKey, d.derivedIndex⟩

end KeyAccount

/-- `try!` on a call of the store. -/
def tryStore {α : Type} : Except KeychainError α → Except Trap α
  | .ok a => .ok a
  | .error _ => .error .store

namespace SecureExternallyOwnedAccountRepository

variable (coder : AccountCoder) (store : KeychainService) (k : Keychain)
  (refusal : Option Refusal)

/-- `save(_:)`. -/
def save (account : KeyAccount) : Except Trap Keychain :=
  tryStore (store.save k refusal (coder.encode account.dataStruct) account.address.value)

/-- `remove(address:)`. -/
def remove (address : Address) : Except Trap Keychain :=
  tryStore (store.removeData k refusal address.value)

/-- `find(by:)`. -/
def find (lib : ThirdParty) (address : Address) : Except Trap (Option KeyAccount) := do
  match ← tryStore (store.data k refusal address.value) with
  | none => return none
  | some data =>
      let dataStruct ← unwrap "decoder.decode(ExternallyOwnedAccountPersistedData.self, from: data)"
        (coder.decode data)
      return some (← KeyAccount.ofDataStruct lib dataStruct)

end SecureExternallyOwnedAccountRepository

/-! ### Runs -/

/-- What others do with the keychain. -/
inductive StoreCall
  | save (data : Data) (key : Str)
  | removeData (key : Str)
  | destroy
  deriving DecidableEq, Repr

/-- A call of the repository, the removal of all data by `AppDelegate.resetAll()`, or a call of
another store; with what the system answers. -/
inductive KeychainAction
  | save (account : KeyAccount) (refusal : Option Refusal)
  | find (address : Address) (refusal : Option Refusal)
  | remove (address : Address) (refusal : Option Refusal)
  | resetAll (refusal : Option Refusal)
  | other (store : KeychainService) (call : StoreCall) (refusal : Option Refusal)
  deriving DecidableEq

/-- The keychain, and what `find(by:)` has returned. -/
structure KeychainProcess where
  keychain : Keychain
  answers : List (Option KeyAccount) := []
  deriving DecidableEq

namespace KeychainProcess

/-- A call of some store; an error leaves the keychain as it is. -/
def call (store : KeychainService) (k : Keychain) (refusal : Option Refusal) (c : StoreCall) :
    Keychain :=
  let result := match c with
    | .save data key => store.save k refusal data key
    | .removeData key => store.removeData k refusal key
    | .destroy => store.destroy k refusal
  result.toOption.getD k

open SecureExternallyOwnedAccountRepository in
def step (coder : AccountCoder) (lib : ThirdParty) (store : KeychainService)
    (p : KeychainProcess) : KeychainAction → Except Trap KeychainProcess
  | .save account refusal => do
      return { p with keychain := ← save coder store p.keychain refusal account }
  | .find address refusal => do
      let account ← find coder store p.keychain refusal lib address
      return { p with answers := p.answers ++ [account] }
  | .remove address refusal => do
      return { p with keychain := ← remove store p.keychain refusal address }
  | .resetAll refusal => .ok { p with keychain := call store p.keychain refusal .destroy }
  | .other other c refusal => .ok { p with keychain := call other p.keychain refusal c }

end KeychainProcess

end MultisigWallet
