import MultisigWallet.TokenFormatter

/-!
# MultisigWallet.TokenInput

The field for an amount. It shows the amount as text, and when editing ends it reads the text back
and shows what it has read. Three rules check a text when it is set or typed; setting the amount up
writes the text without them.
-/

namespace MultisigWallet

/-- `RuleStatus`. -/
inductive RuleStatus
  | error
  | success
  | inactive
  deriving DecidableEq, Repr

/-- The separators of a `Locale`. -/
structure Locale where
  decimalSeparator : Option Str
  groupingSeparator : Option Str
  deriving DecidableEq, Repr

namespace TokenBounds

def maxTokenValue : Int := 2 ^ 256 - 1
def minTokenValue : Int := 0
def maxDigitsCount : Int := (stringOfInt maxTokenValue).length
def minDigitsCount : Int := 0

def isWithinBounds (value : Int) : Bool := minTokenValue ≤ value ∧ value ≤ maxTokenValue

def hasCorrectDigitCount (value : Int) : Bool := minDigitsCount ≤ value ∧ value ≤ maxDigitsCount

end TokenBounds

/-- `localizedString(from:locale:forcePlusSign:shortFormat:)`, with literals in place of the
localized ones. -/
def TokenFormatter.localizedString (number : BigDecimal) (locale : Locale)
    (forcePlusSign : Bool := false) (shortFormat : Bool := true) : Except Trap Str :=
  string number (locale.decimalSeparator.getD ['.']) (locale.groupingSeparator.getD [','])
    defaultLiterals forcePlusSign shortFormat

/-- A `TokenInput`, with the text of its text field (`nil` reads as empty) and its rules. -/
structure TokenInput where
  locale : Locale
  decimals : Int := 18
  value : Int := 0
  text : Str := []
  valueIsTooBig : RuleStatus := .inactive
  excededAmountOfFractionalDigits : RuleStatus := .inactive
  valueIsNotANumber : RuleStatus := .inactive
  deriving DecidableEq, Repr

namespace TokenInput

open TokenFormatter

variable (lib : BigIntPackage)

/-- `isValid`. -/
def isValid (field : TokenInput) : Bool :=
  field.valueIsTooBig = .success ∧ field.excededAmountOfFractionalDigits = .success ∧
    field.valueIsNotANumber = .success

/-! ### The rules -/

/-- `valueIsANumber(_:)`. -/
def valueIsANumber (field : TokenInput) (value : Str) : Bool :=
  (number lib value field.decimals).isSome

/-- `valueIsNotTooBig(_:)`. -/
def valueIsNotTooBig (field : TokenInput) (value : Str) : Bool :=
  match number lib value field.decimals with
  | none => true
  | some number => TokenBounds.isWithinBounds number.value

/-- `notExcededAmountOfFractionalDigits(_:)`. -/
def notExcededAmountOfFractionalDigits (field : TokenInput) (value : Str) : Bool :=
  match number lib value field.decimals, componentsSeparatedBy decimalSeparators value with
  | some _, [_, fractionalPart] =>
      (removingTrailingZeroes fractionalPart).length ≤ field.decimals
  | _, _ => true

/-- `validate(_:)` of a rule. -/
def validate (isValid : Bool) : RuleStatus := if isValid then .success else .error

/-- `validateRules(for:)`: an empty text resets the rules. -/
def validateRules (field : TokenInput) (text : Str) : TokenInput :=
  if text = [] then
    { field with
      valueIsTooBig := .inactive
      excededAmountOfFractionalDigits := .inactive
      valueIsNotANumber := .inactive }
  else
    { field with
      valueIsTooBig := validate (field.valueIsNotTooBig lib text)
      excededAmountOfFractionalDigits := validate (field.notExcededAmountOfFractionalDigits lib text)
      valueIsNotANumber := validate (field.valueIsANumber lib text) }

/-- The setter of `text`, which typing calls too. -/
def setText (field : TokenInput) (newValue : Str) : TokenInput :=
  { field with text := newValue.take TokenBounds.maxDigitsCount.toNat }.validateRules lib newValue

/-! ### The amount -/

/-- `stringValue()`. -/
def stringValue (field : TokenInput) : Except Trap Str :=
  localizedString ⟨field.value, field.decimals⟩ field.locale false false

/-- `setUp(value:decimals:)`. -/
def setUp (field : TokenInput) (value decimals : Int) : Except Trap TokenInput := do
  precondition (TokenBounds.hasCorrectDigitCount decimals) "TokenBounds.hasCorrectDigitCount(decimals)"
  precondition (TokenBounds.isWithinBounds value) "TokenBounds.isWithinBounds(value: value)"
  let field := { field with decimals := decimals, value := value }
  if value = 0 then return { field with text := [] }
  else
    let text ← field.stringValue
    return { field with text := text }

/-- `textFieldDidEndEditing(_:)`. -/
def textFieldDidEndEditing (field : TokenInput) : Except Trap TokenInput :=
  if field.isValid = true ∧ field.text ≠ [] then do
    let value := ((number lib field.text field.decimals).map (·.value)).getD 0
    let field := { field with value := value }
    let text ← field.stringValue
    return { field with text := text }
  else .ok { field with value := 0 }

/-- `textFieldDidEndEditing(_:)`, called `n` times. -/
def endEditing : Nat → TokenInput → Except Trap TokenInput
  | 0, field => .ok field
  | n + 1, field => do
      let field ← field.textFieldDidEndEditing lib
      endEditing n field

end TokenInput

end MultisigWallet
