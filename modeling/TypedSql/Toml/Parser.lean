import TypedSql.Toml.Scalar
import TypedSql.Toml.Table

namespace TypedSql.Toml

open Reader (many run1 exactly)

def skipTrivia (inComment : Bool) : List Char → Option (List Char)
  | [] => some []
  | '\n' :: rest => skipTrivia false rest
  | '\r' :: '\n' :: rest => skipTrivia false rest
  | c :: rest =>
    if inComment then
      if isPrintable c then skipTrivia true rest else none
    else if isSpace c then skipTrivia false rest
    else if c == '#' then skipTrivia true rest
    else some (c :: rest)

def lineEnd (text : List Char) : Option (List Char) :=
  match skipSpaces text with
  | '#' :: rest => closing (rest.dropWhile isPrintable)
  | rest => closing rest
where
  closing : List Char → Option (List Char)
    | [] => some []
    | '\n' :: rest => some rest
    | '\r' :: '\n' :: rest => some rest
    | _ => none

def isBareKeyChar (c : Char) : Bool := c.isAlphanum || c == '_' || c == '-'

def simpleKey : Reader String := fun text =>
  match text with
  | '\x22' :: rest => (basicBody rest).map fun r => (String.ofList r.1, r.2)
  | '\x27' :: rest => (literalBody rest).map fun r => (String.ofList r.1, r.2)
  | text => (run1 isBareKeyChar text).map fun r => (String.ofList r.1, r.2)

def nextKey : Reader String := fun text => do
  let rest ← exactly '.' (skipSpaces text)
  simpleKey (skipSpaces rest)

/-- How deep tables and arrays may be nested, be it by brackets or by the dots of one key. -/
def nestingLimit : Nat := 79

/-- A key whose dots are taken apart: the way to a table and the name in it. -/
def dottedKey : Reader (List String × String) := fun text => do
  let (first, rest) ← simpleKey text
  let (more, rest) := many nextKey rest
  if nestingLimit ≤ more.length then none
  else match (first :: more).reverse with
    | [] => none
    | key :: parents => some ((parents.reverse, key), rest)

/-- A key and its value, given how values are read. -/
def keyValue (value : Reader Json) : Reader ((List String × String) × Json) := fun text => do
  let (key, rest) ← dottedKey text
  let rest ← exactly '=' (skipSpaces rest)
  let (v, rest) ← value (skipSpaces rest)
  some ((key, v), rest)

def item (value : Reader Json) : Reader Json := fun text => do
  let text ← skipTrivia false text
  let (v, rest) ← value text
  let rest ← skipTrivia false rest
  some (v, rest)

def nextItem (value : Reader Json) : Reader Json := fun text => do
  let rest ← exactly ',' text
  item value rest

/-- An array after its bracket. A comma may follow the last item. -/
def arrayBody (value : Reader Json) : Reader Json := fun text => do
  let text ← skipTrivia false text
  match text with
  | ']' :: rest => some (.arr [], rest)
  | text =>
    let (first, rest) ← item value text
    let (more, rest) := many (nextItem value) rest
    let rest ← (match rest with
      | ',' :: rest => skipTrivia false rest
      | rest => some rest)
    let rest ← exactly ']' rest
    some (.arr (first :: more), rest)

def nextMember (value : Reader Json) : Reader ((List String × String) × Json) := fun text => do
  let rest ← exactly ',' (skipSpaces text)
  keyValue value (skipSpaces rest)

def inlineTable? (members : List ((List String × String) × Json)) : Option Json := do
  let entries ← members.foldlM
    (fun entries m => Entries.insertValue m.1.1 m.1.2 m.2 entries) []
  some (.obj (membersOfEntries entries))

def inlineTableBody (value : Reader Json) : Reader Json := fun text =>
  match skipSpaces text with
  | '\x7d' :: rest => some (.obj [], rest)
  | text => do
    let (first, rest) ← keyValue value text
    let (more, rest) := many (nextMember value) rest
    let rest ← exactly '\x7d' (skipSpaces rest)
    let table ← inlineTable? (first :: more)
    some (table, rest)

/-- A value in which containers are nested at most `limit` deep. -/
def value (limit : Nat) : Reader Json := fun text =>
  match limit, text with
  | limit + 1, '[' :: rest => arrayBody (value limit) rest
  | limit + 1, '\x7b' :: rest => inlineTableBody (value limit) rest
  | _, '\x22' :: _ | _, '\x27' :: _ => (string text).map fun r => (.str (String.ofList r.1), r.2)
  | _, text => bareValue text

def header (b : Builder) : List Char → Option (Builder × List Char)
  | '[' :: text => do
    let (key, rest) ← dottedKey (skipSpaces text)
    let rest ← exactly ']' (skipSpaces rest)
    let rest ← exactly ']' rest
    let b ← b.openItem key.1 key.2
    some (b, rest)
  | text => do
    let (key, rest) ← dottedKey (skipSpaces text)
    let rest ← exactly ']' (skipSpaces rest)
    let b ← b.openTable key.1 key.2
    some (b, rest)

/-- One header or one key with its value, up to the end of the line. -/
def expression (b : Builder) (text : List Char) : Option (Builder × List Char) := do
  let (b, rest) ← (match text with
    | '[' :: rest => header b rest
    | text => do
      let ((key, v), rest) ← keyValue (value nestingLimit) text
      let b ← b.insert key.1 key.2 v
      some (b, rest))
  let rest ← lineEnd rest
  some (b, rest)

def document (limit : Nat) (b : Builder) (text : List Char) : Option Json := do
  match ← skipTrivia false text, limit with
  | [], _ => b.finish
  | _, 0 => none
  | text, limit + 1 =>
    let (b, rest) ← expression b text
    document limit b rest

/-- Reads a document. Tables become objects; numbers other than naturals and points in time
    keep their spelling. -/
def parse? (text : String) : Option Json :=
  match text.toList with
  | '\ufeff' :: rest => document rest.length .start rest
  | text => document text.length .start text

end TypedSql.Toml
