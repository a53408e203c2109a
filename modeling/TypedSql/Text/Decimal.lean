namespace TypedSql.Decimal

def natOfDigits (digits : List Char) : Nat :=
  digits.foldl (fun n c => 10 * n + (c.toNat - 48)) 0

/-- The least number that floats of 64 bits round to infinity. -/
def floatLimit : Nat := Nat.pow 2 1024 - Nat.pow 2 970

/-- The nearest number that has 53 binary digits before its zeros. A half goes to the even
    neighbour. -/
def roundToFloat (n : Nat) : Nat :=
  let unit := Nat.pow 2 (n.log2 - 52)
  let quotient := n / unit
  let rest := n % unit
  if 2 * rest < unit || (2 * rest == unit && quotient % 2 == 0) then quotient * unit
  else (quotient + 1) * unit

/-- Whether `n * 10 ^ exponent` reaches the limit. The number of digits before the point tells,
    unless it is that of the limit. -/
def reachesLimit (n : Nat) (exponent : Int) : Bool :=
  let whole := (Nat.toDigits 10 n).length + exponent
  n != 0 && (309 < whole ||
    (whole == 309 && floatLimit * Nat.pow 10 (-exponent).toNat ≤ n * Nat.pow 10 exponent.toNat))

def exponentValue : List Char → Int
  | '+' :: digits => natOfDigits digits
  | '-' :: digits => -(natOfDigits digits : Int)
  | digits => natOfDigits digits

def isExponentLetter (c : Char) : Bool := c == 'e' || c == 'E'

def isTooLarge (spelling : List Char) : Bool :=
  let digits := spelling.takeWhile fun c => !isExponentLetter c
  let exponent := exponentValue ((spelling.dropWhile fun c => !isExponentLetter c).drop 1)
  let fraction := (digits.dropWhile (· != '.')).drop 1
  reachesLimit (natOfDigits (digits.filter (· != '.'))) (exponent - fraction.length)

end TypedSql.Decimal
