import TypedSql.Text.Decimal
import TypedSql.Text.Reader

namespace TypedSql.Json

/-- A number in the parts of its spelling: the digits before and after the point, and the
    exponent where it is written. -/
structure Number where
  isNegative : Bool
  whole : List Char
  fraction : List Char
  exponent : Option Int
  deriving DecidableEq, Repr

namespace Number

open Reader (run1)

/-- The digits before the point: a zero, or digits that do not start with one. -/
def readWhole : Reader (List Char) := fun text => do
  let (digits, rest) ← run1 Char.isDigit text
  if digits.head? == some '0' && 1 < digits.length then none else some (digits, rest)

def readFraction : Reader (List Char)
  | '.' :: text => run1 Char.isDigit text
  | text => some ([], text)

def readPower : Reader Int
  | '+' :: text => (run1 Char.isDigit text).map fun r => ((Decimal.natOfDigits r.1 : Int), r.2)
  | '-' :: text => (run1 Char.isDigit text).map fun r => (-(Decimal.natOfDigits r.1 : Int), r.2)
  | text => (run1 Char.isDigit text).map fun r => ((Decimal.natOfDigits r.1 : Int), r.2)

def readExponent : Reader (Option Int)
  | 'e' :: text => (readPower text).map fun r => (some r.1, r.2)
  | 'E' :: text => (readPower text).map fun r => (some r.1, r.2)
  | text => some (none, text)

def readUnsigned (isNegative : Bool) : Reader Number := fun text => do
  let (whole, rest) ← readWhole text
  let (fraction, rest) ← readFraction rest
  let (exponent, rest) ← readExponent rest
  some (⟨isNegative, whole, fraction, exponent⟩, rest)

def read : Reader Number
  | '-' :: text => readUnsigned true text
  | text => readUnsigned false text

def nat? (n : Number) : Option Nat :=
  if !n.isNegative && n.fraction.isEmpty && n.exponent.isNone then
    some (Decimal.natOfDigits n.whole)
  else none

/-- Goes on with `n` by as many digits as fit into a word, up to the first that does not. -/
def fitting (n : Nat) : List Char → Nat × List Char
  | [] => (n, [])
  | c :: rest =>
    if 10 * n + (c.toNat - 48) < UInt64.size then fitting (10 * n + (c.toNat - 48)) rest
    else (n, c :: rest)

/-- A word of significant digits and a power of ten that stand for the number. Digits that do
    not fit into the word count by their place alone. -/
def scaled (n : Number) : Nat × Int :=
  let (word, dropped) := fitting 0 n.whole
  let (word, unread) := fitting word n.fraction
  (word, n.exponent.getD 0 + dropped.length - (n.fraction.length - unread.length : Nat))

/-- Whether floats are too small for the number. The word and the power of ten are floats
    before they are multiplied, so near the limit the spelling matters too. -/
def isTooLarge (n : Number) : Bool :=
  let (word, exponent) := n.scaled
  match exponent with
  | .ofNat e =>
    word != 0 && (308 < e ||
      Decimal.floatLimit ≤ Decimal.roundToFloat word * Decimal.roundToFloat (Nat.pow 10 e))
  | .negSucc _ => false

end Number

end TypedSql.Json
