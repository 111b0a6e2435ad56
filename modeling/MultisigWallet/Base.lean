import Mathlib.Algebra.Group.Int.Defs
import Mathlib.Data.Char
import Mathlib.Data.List.Lex

/-!
# MultisigWallet.Base

The value types the domain model is written in, and the two ways a Swift function
can fail to return a value.

* A function that *throws* returns to its caller with an error. It is modelled by
  returning the error as data.
* A function that **traps** stops the process: a failed `precondition`, `try!` on a
  thrown error, `!` on `nil`, an arithmetic overflow, removing more elements than a
  collection has. Trapping functions return `Except Trap`, and nothing in the model
  ever catches a `Trap`.

`Str` is the list of the characters of a Swift `String`; every string the model
computes with (addresses, hex digits, decimal numbers) is ASCII or only compared.
-/

namespace MultisigWallet

/-- Foundation's `Data`. -/
abbrev Data := List UInt8

/-- A Swift `String`, as the list of its characters. -/
abbrev Str := List Char

instance Str.lawfulBEq : LawfulBEq Str := inferInstance

/-- What is said of every character of a string is decided along the string. -/
instance (priority := 2000) Str.decidableBAll {p : Char → Prop} [DecidablePred p] (s : Str) :
    Decidable (∀ c ∈ s, p c) :=
  List.decidableBAll p s

instance (priority := 2000) Str.decidableBEx {p : Char → Prop} [DecidablePred p] (s : Str) :
    Decidable (∃ c ∈ s, p c) :=
  List.decidableBEx p s

/-- Foundation's `Date`, as a number of ticks since the reference date. -/
abbrev Date := Int

/-- The string identifier that `BaseID` wraps. -/
abbrev BaseID := Str

abbrev TransactionID := BaseID
abbrev WalletID := BaseID
abbrev TokenID := BaseID

/-- Identifies an account of a wallet by the token it holds. -/
structure AccountID where
  tokenID : TokenID
  walletID : WalletID
  deriving DecidableEq, Repr

/-! ### Addresses and tokens -/

/-- An Ethereum address, kept as the string it was read from. Two spellings of one
address (checksummed and lower case) are different values. -/
structure Address where
  value : Str
  deriving DecidableEq, Repr

/-- `lowercased()` on the ASCII strings the model applies it to. -/
def lowercased (s : Str) : Str := s.map Char.toLower

/-- `"0x"`. -/
def hexMark : Str := ['0', 'x']

namespace Address

/-- `RecoveryDomainService`'s and `OwnerLinkedList`'s normal form of an address. -/
def normalized (a : Address) : Address := ⟨lowercased a.value⟩

/-- The 20-byte zero address. -/
def zero : Address := ⟨hexMark ++ List.replicate 40 '0'⟩

/-- The address `0x00…02`. -/
def two : Address := ⟨hexMark ++ List.replicate 39 '0' ++ ['2']⟩

end Address

/-- A token; its identifier is its contract address. -/
structure Token where
  code : Str
  name : Str
  decimals : Int
  address : Address
  logoUrl : Str
  deriving DecidableEq, Repr

namespace Token

/-- `Token.id`. -/
def id (token : Token) : TokenID := token.address.value

/-- `Token.Ether`: the pseudo-token at the zero address. -/
def Ether : Token :=
  { code := ['E', 'T', 'H'], name := ['E', 't', 'h', 'e', 'r'], decimals := 18,
    address := Address.zero, logoUrl := [] }

end Token

/-- An amount of a token, in its smallest unit. -/
structure TokenAmount where
  amount : Int
  token : Token
  deriving DecidableEq, Repr

/-- `TokenAmount.ether(_:)`. -/
def TokenAmount.ether (amount : Int) : TokenAmount := ⟨amount, Token.Ether⟩

/-! ### Errors and traps -/

/-- `TransactionStatus.Code`. -/
inductive TransactionStatus
  | draft
  | signing
  | pending
  | rejected
  | failed
  | success
  | discarded
  deriving DecidableEq, Repr

/-- The name string interpolation prints for a status. -/
def TransactionStatus.description : TransactionStatus → String
  | draft => "draft"
  | signing => "signing"
  | pending => "pending"
  | rejected => "rejected"
  | failed => "failed"
  | success => "success"
  | discarded => "discarded"

/-- `Transaction.Error`. -/
inductive TransactionError
  | invalidStatusForEditing (status : TransactionStatus)
  | invalidStatusForSigning (status : TransactionStatus)
  | invalidStatusForSetHash (status : TransactionStatus)
  | invalidStatusForTimestamp (status : TransactionStatus)
  | invalidStatusTransition (source target : TransactionStatus)
  | senderNotSet
  | recipientNotSet
  | amountNotSet
  | feeNotSet
  | transactionHashNotSet
  deriving DecidableEq, Repr

/-- `Wallet.Error`. -/
inductive WalletError
  | ownerNotFound
  | invalidState
  deriving DecidableEq, Repr

/-- How the process can stop. -/
inductive Trap
  /-- `try!` on an error thrown by a transaction's assertions. -/
  | transaction (error : TransactionError)
  /-- `try!` on an error thrown by a wallet's assertions. -/
  | wallet (error : WalletError)
  /-- `try!` on `TransactionError.unsignedTransaction` of the application service. -/
  | unsignedTransaction
  /-- `precondition` or `preconditionFailure`. -/
  | preconditionFailure (message : String)
  /-- `!` on `nil`; the text names the unwrapped expression. -/
  | unwrappedNil (expression : String)
  /-- An `Int` operation left the 64-bit range. -/
  | overflow
  /-- `removeFirst(_:)` of more elements than there are. -/
  | removeFirst
  /-- `exit(_:)`, called on purpose. -/
  | exit
  /-- `try!` on an error of the secure store, which does not replace what it holds. -/
  | store
  /-- A subscript beyond the end of an array. -/
  | indexOutOfRange
  deriving DecidableEq, Repr

/-- `value!`. -/
def unwrap {α : Type*} (expression : String) : Option α → Except Trap α
  | some a => .ok a
  | none => .error (.unwrappedNil expression)

@[simp] theorem unwrap_some {α : Type*} (e : String) (a : α) :
    unwrap e (some a) = .ok a := rfl

theorem unwrap_ok {α : Type*} {e : String} {o : Option α} {a : α} :
    unwrap e o = .ok a ↔ o = some a := by
  cases o <;> simp [unwrap]

/-- `precondition(condition, message)`. -/
def precondition (condition : Bool) (message : String) : Except Trap Unit :=
  if condition then .ok () else .error (.preconditionFailure message)

theorem precondition_ok {b : Bool} {m : String} :
    precondition b m = .ok () ↔ b = true := by
  cases b <;> simp [precondition]

/-- Peel one call off a trapping computation. -/
theorem bind_ok {ε α β : Type} {x : Except ε α} {f : α → Except ε β} {b : β} :
    (x >>= f) = .ok b ↔ ∃ a, x = .ok a ∧ f a = .ok b := by
  cases x with
  | error e => simp [bind, Except.bind]
  | ok a => simp [bind, Except.bind]

/-- When a computation that goes on returns. -/
theorem bind_isOk {ε α β : Type} {x : Except ε α} {f : α → Except ε β} :
    (∃ b, (x >>= f) = .ok b) ↔ ∃ a, x = .ok a ∧ ∃ b, f a = .ok b := by
  constructor
  · intro h
    obtain ⟨b, hb⟩ := h
    obtain ⟨a, ha, hb⟩ := bind_ok.mp hb
    exact ⟨a, ha, b, hb⟩
  · intro h
    obtain ⟨a, ha, b, hb⟩ := h
    exact ⟨b, bind_ok.mpr ⟨a, ha, hb⟩⟩

/-- Where every element gives what `g` says, the list gives their list. -/
theorem mapM_eq_ok {ε α β : Type} {f : α → Except ε β} {g : α → β} {as : List α}
    (h : ∀ a ∈ as, f a = .ok (g a)) : as.mapM f = .ok (as.map g) := by
  induction as with
  | nil => rfl
  | cons a as ih =>
      obtain ⟨ha, has⟩ := List.forall_mem_cons.mp h
      rw [List.mapM_cons, ha, ih has]
      rfl

/-- A list is gone through if every element of it is, and gives what its elements give. -/
theorem exists_mapM_ok {ε α β : Type} {f : α → Except ε β} {as : List α}
    (h : ∀ a ∈ as, ∃ b, f a = .ok b) :
    ∃ bs, as.mapM f = .ok bs ∧ ∀ b, b ∈ bs ↔ ∃ a ∈ as, f a = .ok b := by
  induction as with
  | nil => exact ⟨[], rfl, fun b => by simp⟩
  | cons a as ih =>
      obtain ⟨⟨b, hb⟩, has⟩ := List.forall_mem_cons.mp h
      obtain ⟨bs, hbs, hmem⟩ := ih has
      refine ⟨b :: bs, ?_, fun c => ?_⟩
      · rw [List.mapM_cons, hb, hbs]
        rfl
      · rw [List.mem_cons, hmem, List.exists_mem_cons_iff, hb, Except.ok.injEq, eq_comm]

theorem toOption_eq_some {ε α : Type} {x : Except ε α} {a : α} :
    x.toOption = some a ↔ x = .ok a := by
  cases x with
  | error e => simp [Except.toOption]
  | ok b => simp [Except.toOption]

/-- Read what a computation returned off its evaluation. -/
theorem exists_ok_of_any {ε α : Type} {x : Except ε α} {p : α → Bool}
    (h : x.toOption.any p = true) : ∃ a, x = .ok a ∧ p a = true := by
  cases x with
  | error e => cases h
  | ok a => exact ⟨a, rfl, h⟩

/-! ### Whitespace -/

/-- `CharacterSet.whitespacesAndNewlines`. -/
def isWhitespaceOrNewline (c : Char) : Bool :=
  let n := c.toNat
  decide (9 ≤ n ∧ n ≤ 13 ∨ n = 0x20 ∨ n = 0x85 ∨ n = 0xA0 ∨ n = 0x1680 ∨
    0x2000 ≤ n ∧ n ≤ 0x200B ∨ n = 0x2028 ∨ n = 0x2029 ∨ n = 0x202F ∨ n = 0x205F ∨ n = 0x3000)

/-- `trimmingCharacters(in: .whitespacesAndNewlines)`. -/
def trimmed (s : Str) : Str :=
  ((s.dropWhile isWhitespaceOrNewline).reverse.dropWhile isWhitespaceOrNewline).reverse

/-! ### 64-bit integers -/

/-- The range of Swift's `Int`. -/
def isInt (n : Int) : Bool := decide (-2 ^ 63 ≤ n) && decide (n < 2 ^ 63)

/-- `a + b` on `Int`, which traps on overflow. -/
def addInt (a b : Int) : Except Trap Int :=
  if isInt (a + b) then .ok (a + b) else .error .overflow

/-- `String(value)` of an integer, in base 10. -/
def stringOfInt (n : Int) : Str :=
  if n < 0 then '-' :: Nat.toDigits 10 n.natAbs else Nat.toDigits 10 n.natAbs

theorem addInt_ok {a b c : Int} : addInt a b = .ok c ↔ isInt (a + b) = true ∧ a + b = c := by
  unfold addInt
  split <;> simp_all

end MultisigWallet
