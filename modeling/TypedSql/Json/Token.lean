import TypedSql.Json.Number
import TypedSql.Json.Reading

namespace TypedSql.Json

/-- A lexical unit of JSON. Where there is none, a broken scalar stands. -/
inductive Token where
  | objectOpen | objectClose | arrayOpen | arrayClose | colon | comma
  | scalar (value : Reading)

namespace Token

def isSpace (c : Char) : Bool := c == ' ' || c == '\t' || c == '\n' || c == '\r'

def ofPunctuation? : Char → Option Token
  | '\x7b' => some .objectOpen
  | '\x7d' => some .objectClose
  | '[' => some .arrayOpen
  | ']' => some .arrayClose
  | ':' => some .colon
  | ',' => some .comma
  | _ => none

def endsWord (c : Char) : Bool := isSpace c || c == '\x22' || (ofPunctuation? c).isSome

def ofNumber (n : Number) (spelling : List Char) : Reading :=
  if n.isTooLarge then .unfit
  else match n.nat? with
    | some value => .nat value
    | none => .number (String.ofList spelling)

/-- The value that a word begins with, and what is left of the word. -/
def readWord : Reader Reading
  | 't' :: 'r' :: 'u' :: 'e' :: rest => some (.bool true, rest)
  | 'f' :: 'a' :: 'l' :: 's' :: 'e' :: rest => some (.bool false, rest)
  | 'n' :: 'u' :: 'l' :: 'l' :: rest => some (.null, rest)
  | word => (Number.read word).map fun (n, rest) =>
      (ofNumber n (word.take (word.length - rest.length)), rest)

/-- The tokens that a word makes, before those in `tokens`, which stand in reverse. -/
def pushWord (word : List Char) (tokens : List Token) : List Token :=
  match readWord word with
  | some (value, []) => .scalar value :: tokens
  | some (value, _) => .scalar .broken :: .scalar value :: tokens
  | none => .scalar .broken :: tokens

def hexDigit? (c : Char) : Option Nat :=
  if c.isDigit then some (c.toNat - 48)
  else if 'a' ≤ c ∧ c ≤ 'f' then some (c.toNat - 87)
  else if 'A' ≤ c ∧ c ≤ 'F' then some (c.toNat - 55)
  else none

def simpleEscape? : Char → Option Char
  | '\x22' => some '\x22'
  | '\x5c' => some '\x5c'
  | '/' => some '/'
  | 'b' => some '\x08'
  | 'f' => some '\x0c'
  | 'n' => some '\n'
  | 'r' => some '\r'
  | 't' => some '\t'
  | _ => none

end Token

/-- A text as far as it is read: its characters in reverse, a first half of a surrogate pair
    that waits for its partner, and whether every other half has got one. -/
structure PartialText where
  read : List Char := []
  high : Option Nat := none
  isPaired : Bool := true

namespace PartialText

/-- Adds a character. A half that waits will have no partner. -/
def push (t : PartialText) (c : Char) : PartialText :=
  ⟨c :: t.read, none, t.isPaired && t.high.isNone⟩

def pushUnit (t : PartialText) (value : Nat) : PartialText :=
  if 0xDC00 ≤ value ∧ value ≤ 0xDFFF then
    match t.high with
    | some high => { t with
        read := Char.ofNat (0x10000 + (high - 0xD800) * 0x400 + (value - 0xDC00)) :: t.read
        high := none }
    | none => { t with isPaired := false }
  else if 0xD800 ≤ value ∧ value ≤ 0xDBFF then
    ⟨t.read, some value, t.isPaired && t.high.isNone⟩
  else t.push (Char.ofNat value)

def finish (t : PartialText) : Reading :=
  if t.isPaired && t.high.isNone then .text (String.ofList t.read.reverse) else .halfPair

end PartialText

/-- Where in a text the next character stands. At `afterBreak` there are no more tokens. -/
inductive Place where
  | between
  | word (read : List Char)
  | text (t : PartialText)
  | escape (t : PartialText)
  | hex (t : PartialText) (missing value : Nat)
  | afterBreak

/-- What has been read of a text: the place in it and the tokens so far, in reverse. -/
structure Scan where
  place : Place
  tokens : List Token

namespace Scan

def start : Scan := ⟨.between, []⟩

/-- The text goes on by something that is no token. -/
def breakOff (tokens : List Token) : Scan := ⟨.afterBreak, .scalar .broken :: tokens⟩

def enter (tokens : List Token) (c : Char) : Scan :=
  if Token.isSpace c then ⟨.between, tokens⟩
  else if c == '\x22' then ⟨.text {}, tokens⟩
  else match Token.ofPunctuation? c with
    | some token => ⟨.between, token :: tokens⟩
    | none => ⟨.word [c], tokens⟩

def step (s : Scan) (c : Char) : Scan :=
  match s.place with
  | .between => enter s.tokens c
  | .word read =>
    if Token.endsWord c then enter (Token.pushWord read.reverse s.tokens) c
    else { s with place := .word (c :: read) }
  | .text t =>
    if c == '\x22' then ⟨.between, .scalar t.finish :: s.tokens⟩
    else if c == '\x5c' then { s with place := .escape t }
    else if c.toNat < 0x20 then breakOff s.tokens
    else { s with place := .text (t.push c) }
  | .escape t =>
    if c == 'u' then { s with place := .hex t 4 0 }
    else match Token.simpleEscape? c with
      | some e => { s with place := .text (t.push e) }
      | none => breakOff s.tokens
  | .hex t missing value =>
    match Token.hexDigit? c with
    | none => breakOff s.tokens
    | some d =>
      if missing ≤ 1 then { s with place := .text (t.pushUnit (16 * value + d)) }
      else { s with place := .hex t (missing - 1) (16 * value + d) }
  | .afterBreak => s

def finish (s : Scan) : List Token :=
  match s.place with
  | .between | .afterBreak => s.tokens.reverse
  | .word read => (Token.pushWord read.reverse s.tokens).reverse
  | .text _ | .escape _ | .hex _ _ _ => (Token.scalar .broken :: s.tokens).reverse

end Scan

def tokens (text : String) : List Token := (text.toList.foldl Scan.step Scan.start).finish

end TypedSql.Json
