import TypedSql.Name.Basic
import TypedSql.Schema.Basic
import TypedSql.Text.Lowercase
import TypedSql.Text.Reader

namespace TypedSql.Script

open Reader (many run1 exactly)

def isGap (c : Char) : Bool := c == ' ' || c == '\t'

def isLayout (c : Char) : Bool := isGap c || c == '\r' || c == '\n'

/-- Skips space, line ends and comments; a comment goes from two hyphens to the end of its
    line. `comment` is where an unfinished comment began: one that a lone carriage return cuts
    off is not skipped. -/
def skipFrom (comment : Option (List Char)) : List Char → List Char
  | [] => []
  | c :: rest =>
    match comment with
    | none =>
      if isLayout c then skipFrom none rest
      else match c, rest with
        | '-', '-' :: text => skipFrom (some (c :: rest)) text
        | _, _ => c :: rest
    | some start =>
      if c == '\n' then skipFrom none rest
      else if c == '\r' then
        match rest with
        | '\n' :: text => skipFrom none text
        | _ => start
      else skipFrom comment rest

def skipLayout (text : List Char) : List Char := skipFrom none text

def word : Reader (List Char) := run1 isWordRest

def gap : Reader (List Char) := run1 isGap

def keyword : List Char → List Char → Option (List Char)
  | [], text => some text
  | k :: ks, c :: rest => if c.toLower = k then keyword ks rest else none
  | _ :: _, [] => none

def keywordPair (first second : String) (text : List Char) : Option (List Char) := do
  let rest ← keyword first.toList text
  let (_, rest) ← gap rest
  keyword second.toList rest

def bracketed (inner : Reader (List Char)) : Reader (List Char) := fun text => do
  let rest ← exactly '(' text
  let (taken, rest) ← inner rest
  let rest ← exactly ')' rest
  some ('(' :: taken ++ [')'], rest)

def orNothing (reader : Reader (List Char)) (text : List Char) : List Char × List Char :=
  (reader text).getD ([], text)

def arrayMark : List Char → List Char × List Char
  | '[' :: ']' :: rest => (['[', ']'], rest)
  | rest => ([], rest)

def columnType : Reader (List Char) := fun text => do
  let (name, rest) ← word text
  let (arguments, rest) := orNothing (bracketed (run1 (· != ')'))) rest
  let (mark, rest) := arrayMark rest
  some (name ++ arguments ++ mark, rest)

inductive Constraint where
  | primaryKey | notNull | unique
  | references (target : String)
  | default (value : String)
  deriving DecidableEq, Repr

/-- A word, perhaps with another one in brackets. -/
def referenceTarget : Reader (List Char) := fun text => do
  let (table, rest) ← word text
  let (column, rest) := orNothing (bracketed word) rest
  some (table ++ column, rest)

def isDefaultChar (c : Char) : Bool := !isBlank c && c != ',' && c != ')'

def keyed (name : String) (argument : Reader (List Char)) (make : String → Constraint) :
    Reader Constraint := fun text => do
  let rest ← keyword name.toList text
  let (_, rest) ← gap rest
  let (taken, rest) ← argument rest
  some (make (String.ofList taken), rest)

def spelled (joined first second : String) (constraint : Constraint) : Reader Constraint :=
  fun text =>
    ((keyword joined.toList text).or (keywordPair first second text)).map fun rest =>
      (constraint, rest)

def constraint : Reader Constraint := fun text =>
  (spelled "primary_key" "primary" "key" .primaryKey text).or <|
  (spelled "not_null" "not" "null" .notNull text).or <|
  ((keyword "unique".toList text).map fun rest => (Constraint.unique, rest)).or <|
  (keyed "references" referenceTarget .references text).or <|
  keyed "default" (run1 isDefaultChar) .default text

def Constraint.apply (column : ColumnDef) : Constraint → ColumnDef
  | .primaryKey => { column with primaryKey := true, nullable := false }
  | .notNull => { column with nullable := false }
  | .unique => { column with unique := true }
  | .references target => { column with references := some target }
  | .default value => { column with defaultValue := some value }

def nextConstraint : Reader Constraint := fun text => do
  let (_, rest) ← gap text
  constraint rest

def column : Reader ColumnDef := fun text => do
  let (name, rest) ← word (skipLayout text)
  let (_, rest) ← gap rest
  let (type, rest) ← columnType rest
  let (constraints, rest) := many nextConstraint rest
  let plain : ColumnDef := { name := String.ofList name, type := String.ofList (lowercase type) }
  some (constraints.foldl Constraint.apply plain, rest)

def nextColumn : Reader ColumnDef := fun text => do
  let rest ← exactly ',' (skipLayout text)
  column rest

def columns (text : List Char) : List ColumnDef × List Char :=
  match column text with
  | none => ([], text)
  | some (first, rest) =>
    let more := many nextColumn rest
    (first :: more.1, more.2)

def table : Reader TableDef := fun text => do
  let rest ← keyword "table".toList (skipLayout text)
  let (_, rest) ← run1 isLayout rest
  let (name, rest) ← word rest
  let rest ← exactly '(' (skipLayout rest)
  let (columns, rest) := columns rest
  let rest ← exactly ')' (skipLayout rest)
  some ({ name := String.ofList name, columns }, rest)

def excerpt (rest : List Char) : String :=
  String.ofList (trimBlank (rest.takeWhile (· != '\n')))

/-- Reads tables up to the end of the text, or tells the line where that ends early. -/
def parse (text : String) : Except String Schema :=
  let (tables, rest) := many table text.toList
  match skipLayout rest with
  | [] => .ok { tables }
  | rest => .error (excerpt rest)

end TypedSql.Script
