import TypedSql.Text.Blank
import TypedSql.Text.Occurs

namespace TypedSql

inductive NameKind where
  | table | field | outputAlias | parameter | jsonKey
  deriving DecidableEq, Repr

def NameKind.all : List NameKind := [.table, .field, .outputAlias, .parameter, .jsonKey]

def NameKind.label : NameKind → String
  | .table => "table"
  | .field => "field"
  | .outputAlias => "alias"
  | .parameter => "parameter"
  | .jsonKey => "JSON key"

/-- A feature of SQL that no name may carry. -/
inductive Forbidden where
  | terminator | lineComment | commentOpening | commentClosing
  | singleQuote | doubleQuote | backquote | backslash
  | booleanKeyword | blank | statementKeyword
  deriving DecidableEq, Repr

def Forbidden.text : Forbidden → String
  | .terminator => "statement terminator ';'"
  | .lineComment => "line comment '--'"
  | .commentOpening => "block comment '/*'"
  | .commentClosing => "block comment '*/'"
  | .singleQuote => "quote '''"
  | .doubleQuote => "quote '\x22'"
  | .backquote => "quote '\x60'"
  | .backslash => "backslash"
  | .booleanKeyword => "boolean keyword"
  | .blank => "whitespace"
  | .statementKeyword => "statement keyword"

/-- The character sequences that no name may contain, in the order they are looked for. -/
def Forbidden.sequences : List (List Char × Forbidden) :=
  [([';'], .terminator), (['-', '-'], .lineComment), (['/', '*'], .commentOpening),
    (['*', '/'], .commentClosing), (['\x27'], .singleQuote), (['\x22'], .doubleQuote),
    (['\x60'], .backquote), (['\x5c'], .backslash)]

def statementKeywords : List String :=
  ["select", "insert", "update", "delete", "drop", "alter", "create", "truncate", "grant",
    "revoke", "exec", "execute", "union", "merge"]

inductive NameFault where
  | badStart | badCharacter
  deriving DecidableEq, Repr

def NameFault.text : NameFault → String
  | .badStart => "must start with a letter or underscore"
  | .badCharacter => "may only contain letters, digits and underscores"

inductive NameError where
  | empty (kind : NameKind)
  | denied (kind : NameKind) (name : String) (found : Forbidden)
  | malformed (kind : NameKind) (name : String) (fault : NameFault)
  | reservedPrefix (name : String)
  | unknownTable (name : String) (suggestion : Option String)
  | unknownField (name : String) (suggestion : Option String)
  | badTableAlias (given : String)
  deriving DecidableEq, Repr

/-- The sentence for an unknown name, with the nearest known one where there is one. -/
def NameError.notFound (what name : String) (suggestion : Option String) : String :=
  let found := what ++ " '" ++ name ++ "' not found."
  match suggestion with
  | some near => found ++ " Did you mean '" ++ near ++ "'?"
  | none => found

def NameError.message : NameError → String
  | .empty kind => "Empty " ++ kind.label ++ " name"
  | .denied kind name found =>
    "Invalid " ++ kind.label ++ " '" ++ name ++ "': contains forbidden " ++ found.text
  | .malformed kind name fault =>
    "Invalid " ++ kind.label ++ " '" ++ name ++ "': " ++ fault.text
  | .reservedPrefix name =>
    "Invalid parameter '" ++ name ++ "': the sq<N>_ prefix is reserved for subqueries"
  | .unknownTable name suggestion => notFound "Table" name suggestion
  | .unknownField name suggestion => notFound "Field" name suggestion
  | .badTableAlias given =>
    "Invalid table alias '" ++ given ++ "': must be a single lowercase letter"

/-- The first reason to deny a non-empty name, whatever it is used as. -/
def Forbidden.find? (name : List Char) : Option Forbidden :=
  match sequences.find? fun entry => occurs entry.1 name with
  | some entry => some entry.2
  | none =>
    let lower := asciiLower name
    if occurs " or ".toList lower || occurs " and ".toList lower then some .booleanKeyword
    else if name.any isBlank then some .blank
    else if statementKeywords.any fun verb => verb.toList == lower then some .statementKeyword
    else none

def isWordStart (c : Char) : Bool := c.isAlpha || c == '_'

def isWordRest (c : Char) : Bool := c.isAlphanum || c == '_'

/-- Accepts words: a letter or underscore, then letters, digits and underscores. -/
def checkWord (kind : NameKind) (name : String) : Except NameError Unit :=
  match name.toList with
  | [] => .error (.empty kind)
  | c :: rest =>
    if !isWordStart c then .error (.malformed kind name .badStart)
    else if !rest.all isWordRest then .error (.malformed kind name .badCharacter)
    else .ok ()

/-- Whether a name starts like one that belongs to a subquery: `sq`, digits, underscore. -/
def hasSubqueryPrefix : List Char → Bool
  | 's' :: 'q' :: d :: rest => d.isDigit && (rest.dropWhile Char.isDigit).head? == some '_'
  | _ => false

/-- The gate for names that the caller chooses. -/
def checkName (kind : NameKind) (name : String) : Except NameError Unit :=
  if name.isEmpty then .error (.empty kind)
  else match Forbidden.find? name.toList with
    | some found => .error (.denied kind name found)
    | none =>
      match checkWord kind name with
      | .error e => .error e
      | .ok () =>
        if kind = .parameter ∧ hasSubqueryPrefix name.toList then .error (.reservedPrefix name)
        else .ok ()

end TypedSql
