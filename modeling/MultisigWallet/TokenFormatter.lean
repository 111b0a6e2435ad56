import MultisigWallet.Base
import Mathlib.Data.List.DropRight

/-!
# MultisigWallet.TokenFormatter

Amounts of tokens as text. An amount is an integer with a number of decimal places; the formatter
works on its decimal digits, and it reads an amount back by parsing what stands before and after
the last decimal separator as two integers.

BigInt enters as `BigIntPackage`: a parser of decimal numerals and the power function. A numeral
may have a sign, and no digits at all denote zero.
-/

namespace MultisigWallet

/-- `BigDecimal`. -/
structure BigDecimal where
  value : Int
  precision : Int
  deriving DecidableEq, Repr

/-- `BigDecimal.zero(_:)`. -/
def BigDecimal.zero (precision : Int) : BigDecimal := ⟨0, precision⟩

/-- A string of decimal digits, which may be empty. -/
def IsDigits (s : Str) : Prop := ∀ c ∈ s, c.isDigit = true

instance (s : Str) : Decidable (IsDigits s) := inferInstanceAs (Decidable (∀ c ∈ s, _))

/-- The signs of a numeral. -/
def signs : Str := ['+', '-']

/-- What BigInt reads as a number. -/
def IsNumeral : Str → Prop
  | [] => True
  | c :: s => IsDigits (c :: s) ∨ (c ∈ signs ∧ IsDigits s)

instance : (s : Str) → Decidable (IsNumeral s)
  | [] => .isTrue trivial
  | _ :: _ => inferInstanceAs (Decidable (_ ∨ _))

/-- The number that a string of digits denotes. -/
def numberOfDigits (s : Str) : Nat := Nat.ofDigitChars 10 s 0

/-- The functions of BigInt that the formatter uses, with what their documentation promises. -/
structure BigIntPackage where
  /-- `BigInt(_:)`. -/
  bigInt : Str → Option Int
  /-- `power(_:)`. -/
  power : Int → Int → Int
  bigInt_digits : ∀ s, IsDigits s → bigInt s = some (numberOfDigits s : Int)
  bigInt_plus : ∀ s, IsDigits s → bigInt ('+' :: s) = some (numberOfDigits s : Int)
  bigInt_minus : ∀ s, IsDigits s → bigInt ('-' :: s) = some (-(numberOfDigits s : Int))
  /-- Anything else is no number. -/
  bigInt_other : ∀ s, ¬ IsNumeral s → bigInt s = none
  power_natCast : ∀ (b : Int) (n : Nat), power b n = b ^ n
  /-- Fractions are cut off. -/
  power_negative : ∀ b n : Int, 1 < b → n < 0 → power b n = 0

/-- `removingTrailingZeroes`. -/
def removingTrailingZeroes (s : Str) : Str := s.rdropWhile (· = '0')

/-- `components(separatedBy:)` of a set of characters. -/
def componentsSeparatedBy (separators s : Str) : List Str := s.splitOnP (· ∈ separators)

/-- The abbreviations of a short amount. -/
structure Literals where
  millions : Str
  billions : Str
  trillions : Str
  deriving DecidableEq, Repr

/-- `stride(from: 0, to: bound, by: size)`. -/
def stride (bound size : Nat) : List Nat :=
  (List.range ((bound + size - 1) / size)).map (· * size)

namespace TokenFormatter

/-- `defaultLiterals`. -/
def defaultLiterals : Literals := ⟨['M'], ['B'], ['T']⟩

/-- `decimalSeparators`. -/
def decimalSeparators : Str := ['.', ',', '٫']

/-! ### Reading -/

/-- What `number(from:precision:)` looks at: no whitespace around the number, and no spaces. -/
def cleaned (input : Str) : Str := (trimmed input).filter (· ≠ ' ')

/-- The integer and the fractional part of what was cut at the separators. -/
def partsOf : List Str → Option (Str × Str)
  | [] => none
  | [integer] => some (integer, ['0'])
  | [integer, fractional] => some (integer, fractional)
  | parts => some (parts.dropLast.flatten, parts.getLastD [])

/-- `number(from:precision:decimalSeparators:)`. -/
def number (lib : BigIntPackage) (input : Str) (precision : Int)
    (separators : Str := decimalSeparators) : Option BigDecimal :=
  let string := cleaned input
  if string = ['0'] then some (.zero precision)
  else
    match partsOf (componentsSeparatedBy separators string) with
    | none => some (.zero precision)
    | some (integer, fractional) => do
        let fractional := removingTrailingZeroes fractional
        let integerNumber ← lib.bigInt integer
        let fractionalNumber ← lib.bigInt fractional
        let value := integerNumber * lib.power 10 precision +
          fractionalNumber * lib.power 10 (precision - fractional.length)
        return ⟨value, precision⟩

/-! ### Writing -/

/-- `groups(string:size:)`. -/
def groups (string : Str) (size : Nat) : List Str :=
  if string.length ≤ size then [string]
  else
    let groupBoundaries := stride string.length size ++ [string.length]
    let ranges := (groupBoundaries.zip groupBoundaries.tail).reverse
    ranges.map fun range =>
      (string.take (string.length - range.1)).drop (string.length - range.2)

/-- The cases of the `switch`: the literal and its degree, and `none` for the default case. -/
def literalAndDegree (literals : Literals) (integerCount : Nat) : Option (Str × Nat) :=
  if integerCount ≤ 8 then some ([], 0)
  else if integerCount = 9 then some (literals.millions, 6)
  else if integerCount < 13 then some (literals.billions, 9)
  else if integerCount < 16 then some (literals.trillions, 12)
  else none

/-- The last lines of `string(from:)`. -/
def joined (decimalSeparator thousandSeparator sign integer fractional literal : Str) : Str :=
  let integerGroupped := List.intercalate thousandSeparator (groups integer 3)
  let magnitude :=
    if fractional = [] then integerGroupped else integerGroupped ++ decimalSeparator ++ fractional
  let sign := if magnitude ≠ ['0'] then sign else []
  sign ++ magnitude ++ literal

/-- What `string(from:)` returns in the short format. -/
def shortened (decimalSeparator thousandSeparator : Str) (literals : Literals) (isNegative : Bool)
    (positiveSign sign integer fractional : Str) : Str :=
  match literalAndDegree literals integer.length with
  | none =>
      if isNegative then ['<', ' ', '-', '9', '9', '9'] ++ literals.trillions
      else ['>', ' '] ++ positiveSign ++ ['9', '9', '9'] ++ literals.trillions
  | some (literal, degree) =>
      if 0 < degree then
        joined decimalSeparator thousandSeparator sign (integer.take (integer.length - degree))
          (removingTrailingZeroes ((integer.rtake degree).take 3)) literal
      else
        let decimalDigitCount := min (8 - integer.length) 5
        joined decimalSeparator thousandSeparator sign integer
          (removingTrailingZeroes (fractional.take decimalDigitCount)) literal

/-- `string(from:)`. A negative precision traps in `suffix(_:)`. -/
def string (number : BigDecimal) (decimalSeparator : Str := ['.']) (thousandSeparator : Str := [','])
    (literals : Literals := defaultLiterals) (forcePlusSign : Bool := false)
    (shortFormat : Bool := true) : Except Trap Str := do
  precondition (decide (0 ≤ number.precision)) "suffix(number.precision)"
  let digits := Nat.toDigits 10 number.value.natAbs
  let leadingZeroesForSmallNumbers :=
    List.replicate (number.precision - digits.length + 1).toNat '0'
  let string := leadingZeroesForSmallNumbers ++ digits
  let suffix := string.rtake number.precision.toNat
  let integer := string.take (string.length - suffix.length)
  let fractional := removingTrailingZeroes suffix
  let isNegative := decide (number.value < 0)
  let positiveSign : Str := if !isNegative && forcePlusSign then ['+'] else []
  let sign : Str := if isNegative then ['-'] else positiveSign
  return if shortFormat then
    shortened decimalSeparator thousandSeparator literals isNegative positiveSign sign integer
      fractional
  else joined decimalSeparator thousandSeparator sign integer fractional []

end TokenFormatter

end MultisigWallet
