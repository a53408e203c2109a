import TypedSql.Json.Basic
import TypedSql.Text.Decimal
import TypedSql.Text.Reader

namespace TypedSql.Toml

def isSpace (c : Char) : Bool := c == ' ' || c == '\t'

def skipSpaces (text : List Char) : List Char := text.dropWhile isSpace

/-- What may stand in a comment or, but for delimiters, in a string on one line. -/
def isPrintable (c : Char) : Bool := c == '\t' || (0x20 ≤ c.toNat && c.toNat != 0x7F)

def hexDigit? (c : Char) : Option Nat :=
  if c.isDigit then some (c.toNat - 48)
  else if 'a' ≤ c ∧ c ≤ 'f' then some (c.toNat - 87)
  else if 'A' ≤ c ∧ c ≤ 'F' then some (c.toNat - 55)
  else none

def charOfHex? (digits : List Char) : Option Char := do
  let n ← digits.foldlM (fun n c => (hexDigit? c).map fun d => 16 * n + d) 0
  if h : n.isValidChar then some (Char.ofNatAux n h) else none

def simpleEscape? : Char → Option Char
  | 'b' => some '\x08'
  | 't' => some '\t'
  | 'n' => some '\n'
  | 'f' => some '\x0c'
  | 'r' => some '\r'
  | '\x22' => some '\x22'
  | '\x5c' => some '\x5c'
  | _ => none

def push (c : Char) (read : Option (List Char × List Char)) : Option (List Char × List Char) :=
  read.map fun r => (c :: r.1, r.2)

def basicBody : Reader (List Char)
  | [] => none
  | '\x22' :: rest => some ([], rest)
  | '\x5c' :: 'u' :: a :: b :: c :: d :: rest =>
    (charOfHex? [a, b, c, d]).bind fun e => push e (basicBody rest)
  | '\x5c' :: 'U' :: a :: b :: c :: d :: e :: f :: g :: h :: rest =>
    (charOfHex? [a, b, c, d, e, f, g, h]).bind fun e => push e (basicBody rest)
  | '\x5c' :: c :: rest => (simpleEscape? c).bind fun e => push e (basicBody rest)
  | c :: rest => if isPrintable c && c != '\x5c' then push c (basicBody rest) else none

def lineEnds (text : List Char) : Bool :=
  match skipSpaces text with
  | '\n' :: _ => true
  | '\r' :: '\n' :: _ => true
  | _ => false

/-- A string of several lines with escapes, after its opening quotes. A backslash at the end
    of a line takes away all space up to the next character; `trimming` says that this goes on.
    Two quotes may stand before the closing three. -/
def multilineBasicBody (trimming : Bool) : Reader (List Char)
  | [] => none
  | '\x22' :: '\x22' :: '\x22' :: '\x22' :: '\x22' :: rest => some (['\x22', '\x22'], rest)
  | '\x22' :: '\x22' :: '\x22' :: '\x22' :: rest => some (['\x22'], rest)
  | '\x22' :: '\x22' :: '\x22' :: rest => some ([], rest)
  | '\x5c' :: 'u' :: a :: b :: c :: d :: rest =>
    (charOfHex? [a, b, c, d]).bind fun e => push e (multilineBasicBody false rest)
  | '\x5c' :: 'U' :: a :: b :: c :: d :: e :: f :: g :: h :: rest =>
    (charOfHex? [a, b, c, d, e, f, g, h]).bind fun e => push e (multilineBasicBody false rest)
  | '\x5c' :: c :: rest =>
    if lineEnds (c :: rest) then multilineBasicBody true (c :: rest)
    else (simpleEscape? c).bind fun e => push e (multilineBasicBody false rest)
  | '\r' :: '\n' :: rest =>
    if trimming then multilineBasicBody true rest else push '\n' (multilineBasicBody false rest)
  | c :: rest =>
    if c == '\n' || isSpace c then
      if trimming then multilineBasicBody true rest else push c (multilineBasicBody false rest)
    else if isPrintable c && c != '\x5c' then push c (multilineBasicBody false rest)
    else none

def literalBody : Reader (List Char)
  | [] => none
  | c :: rest =>
    if c == '\x27' then some ([], rest)
    else if isPrintable c then push c (literalBody rest) else none

def multilineLiteralBody : Reader (List Char)
  | [] => none
  | '\x27' :: '\x27' :: '\x27' :: '\x27' :: '\x27' :: rest => some (['\x27', '\x27'], rest)
  | '\x27' :: '\x27' :: '\x27' :: '\x27' :: rest => some (['\x27'], rest)
  | '\x27' :: '\x27' :: '\x27' :: rest => some ([], rest)
  | '\r' :: '\n' :: rest => push '\n' (multilineLiteralBody rest)
  | c :: rest =>
    if c == '\n' || isPrintable c then push c (multilineLiteralBody rest) else none

/-- A line end right after the opening quotes does not count. -/
def dropLineEnd : List Char → List Char
  | '\n' :: rest => rest
  | '\r' :: '\n' :: rest => rest
  | rest => rest

def string : Reader (List Char)
  | '\x22' :: '\x22' :: '\x22' :: rest => multilineBasicBody false (dropLineEnd rest)
  | '\x22' :: rest => basicBody rest
  | '\x27' :: '\x27' :: '\x27' :: rest => multilineLiteralBody (dropLineEnd rest)
  | '\x27' :: rest => literalBody rest
  | _ => none

/-- Digits that may be parted by single underscores. -/
def digits? (isDigit : Char → Bool) (afterDigit : Bool) : List Char → Option (List Char)
  | [] => if afterDigit then some [] else none
  | '_' :: rest => if afterDigit then digits? isDigit false rest else none
  | c :: rest => if isDigit c then (digits? isDigit true rest).map (c :: ·) else none

def natOfDigits (base : Nat) (digits : List Char) : Nat :=
  digits.foldl (fun n c => base * n + (hexDigit? c).getD 0) 0

def decimal? (word : List Char) : Option Nat := do
  let digits ← digits? Char.isDigit false word
  if digits.length > 1 && digits.head? == some '0' then none
  else some (natOfDigits 10 digits)

def isBinaryDigit (c : Char) : Bool := c == '0' || c == '1'

def isOctalDigit (c : Char) : Bool := '0' ≤ c && c ≤ '7'

def isHexDigit (c : Char) : Bool := (hexDigit? c).isSome

/-- A whole number of 64 bits, as far as it is not negative; others keep their spelling. -/
def integer? (word : List Char) : Option Json :=
  match word with
  | '0' :: 'x' :: rest => based 16 (digits? isHexDigit false rest)
  | '0' :: 'o' :: rest => based 8 (digits? isOctalDigit false rest)
  | '0' :: 'b' :: rest => based 2 (digits? isBinaryDigit false rest)
  | '+' :: rest => (decimal? rest).bind nonNegative
  | '-' :: rest => (decimal? rest).bind fun n =>
    if n = 0 then some (.nat 0)
    else if n ≤ UInt64.size / 2 then some (.number ("-" ++ toString n)) else none
  | rest => (decimal? rest).bind nonNegative
where
  nonNegative (n : Nat) : Option Json := if n < UInt64.size / 2 then some (.nat n) else none
  based (base : Nat) (digits : Option (List Char)) : Option Json :=
    digits.bind fun digits => nonNegative (natOfDigits base digits)

def isExponent : List Char → Bool
  | '+' :: rest => (digits? Char.isDigit false rest).isSome
  | '-' :: rest => (digits? Char.isDigit false rest).isSome
  | rest => (digits? Char.isDigit false rest).isSome

def isFraction (rest : List Char) : Bool :=
  match rest with
  | '.' :: rest =>
    let fraction := rest.takeWhile fun c => c != 'e' && c != 'E'
    (digits? Char.isDigit false fraction).isSome &&
      match rest.dropWhile fun c => c != 'e' && c != 'E' with
      | [] => true
      | _ :: exponent => isExponent exponent
  | c :: exponent => (c == 'e' || c == 'E') && isExponent exponent
  | [] => false

def unsigned : List Char → List Char
  | '+' :: rest => rest
  | '-' :: rest => rest
  | rest => rest

/-- A float. One that is too large is refused, but for a negative one. -/
def isFloat (word : List Char) : Bool :=
  let rest := unsigned word
  let isWhole := fun c : Char => c.isDigit || c == '_'
  rest == "inf".toList || rest == "nan".toList ||
    ((decimal? (rest.takeWhile isWhole)).isSome && isFraction (rest.dropWhile isWhole) &&
      (word.head? == some '-' || !Decimal.isTooLarge (rest.filter (· != '_'))))

def twoDigits? (low high : Nat) : Reader Nat
  | a :: b :: rest =>
    if a.isDigit && b.isDigit then
      let n := natOfDigits 10 [a, b]
      if low ≤ n && n ≤ high then some (n, rest) else none
    else none
  | _ => none

def daysInMonth (year month : Nat) : Nat :=
  if month == 2 then
    if year % 4 == 0 && (year % 100 != 0 || year % 400 == 0) then 29 else 28
  else if month == 4 || month == 6 || month == 9 || month == 11 then 30 else 31

def afterDate? : List Char → Option (List Char)
  | a :: b :: c :: d :: '-' :: rest => do
    if [a, b, c, d].all Char.isDigit then
      let (month, rest) ← twoDigits? 1 12 rest
      let rest ← Reader.exactly '-' rest
      let (_, rest) ← twoDigits? 1 (daysInMonth (natOfDigits 10 [a, b, c, d]) month) rest
      some rest
    else none
  | _ => none

def afterTime? (text : List Char) : Option (List Char) := do
  let (_, rest) ← twoDigits? 0 23 text
  let rest ← Reader.exactly ':' rest
  let (_, rest) ← twoDigits? 0 59 rest
  let rest ← Reader.exactly ':' rest
  let (_, rest) ← twoDigits? 0 60 rest
  match rest with
  | '.' :: fraction => (Reader.run1 Char.isDigit fraction).map (·.2)
  | rest => some rest

def isOffset : List Char → Bool
  | [] => true
  | ['Z'] | ['z'] => true
  | sign :: rest =>
    (sign == '+' || sign == '-') &&
      (do
        let (_, rest) ← twoDigits? 0 23 rest
        let rest ← Reader.exactly ':' rest
        let (_, rest) ← twoDigits? 0 59 rest
        some rest.isEmpty).getD false

def isTimeWithOffset (text : List Char) : Bool := (afterTime? text).any isOffset

def isDate (word : List Char) : Bool := afterDate? word == some []

def isDateTime (word : List Char) : Bool :=
  afterTime? word == some [] ||
    match afterDate? word with
    | some [] => true
    | some (c :: rest) => (c == 'T' || c == 't') && isTimeWithOffset rest
    | none => false

def wordValue? (word : List Char) : Option Json :=
  if word == "true".toList then some (.bool true)
  else if word == "false".toList then some (.bool false)
  else match integer? word with
    | some n => some n
    | none =>
      if isFloat word || isDateTime word then some (.number (String.ofList word)) else none

def isWordChar (c : Char) : Bool :=
  c.isAlphanum || c == '+' || c == '-' || c == '_' || c == '.' || c == ':'

/-- A value without quotes. A space may stand between a date and a time. -/
def bareValue : Reader Json := fun text => do
  let (word, rest) ← Reader.run1 isWordChar text
  match rest with
  | ' ' :: more =>
    let time := more.takeWhile isWordChar
    if isDate word && isTimeWithOffset time then
      some (.number (String.ofList (word ++ ' ' :: time)), more.dropWhile isWordChar)
    else (wordValue? word).map fun v => (v, rest)
  | rest => (wordValue? word).map fun v => (v, rest)

end TypedSql.Toml
