import TypedSql.Name.Gated
import TypedSql.Text.Quoted
import TypedSql.Dialect.Basic

namespace TypedSql

/-- A use of a parameter, with the number of subqueries around it. -/
structure Hole where
  depth : Nat
  param : Param
  deriving DecidableEq

/-- Inside subqueries a parameter's name carries the depth, so that a name can stand for
    another value on each level. -/
def depthPrefix (depth : Nat) : String :=
  if depth = 0 then "" else "sq" ++ toString depth ++ "_"

def Hole.name (hole : Hole) : String := depthPrefix hole.depth ++ hole.param.name

/-- A piece of a statement: plain text, a name to be quoted with what it names, a string
    literal, or a placeholder. -/
inductive Piece where
  | text (s : String)
  | name (kind : NameKind) (s : String)
  | literal (s : String)
  | hole (hole : Hole)
  deriving DecidableEq

def Piece.hole? : Piece → Option Hole
  | .hole use => some use
  | _ => none

/-- A statement, or a part of one, before it is written for a dialect. -/
abbrev Sql := List Piece

def sql (s : String) : Sql := [.text s]

namespace Sql

def join (separator : String) : List Sql → Sql
  | [] => []
  | [part] => part
  | part :: rest => part ++ sql separator ++ join separator rest

def commaList (parts : List Sql) : Sql := join ", " parts

def parenthesised (part : Sql) : Sql := sql "(" ++ part ++ sql ")"

def holes (s : Sql) : List Hole := s.filterMap Piece.hole?

end Sql

namespace Dialect

def delimiters : Dialect → Char × Char
  | .postgres | .sqlite => ('\x22', '\x22')
  | .mySql => ('\x60', '\x60')
  | .sqlServer => ('[', ']')

def quoteName (d : Dialect) (name : String) : String :=
  quoted d.delimiters.1 d.delimiters.2 name

/-- A string literal. A quote is doubled; where a backslash escapes, it is doubled too. -/
def quoteLiteral (d : Dialect) (s : String) : String :=
  match d with
  | .mySql => quoted '\x27' '\x27' (String.ofList (doubled '\x5c' s.toList))
  | _ => quoted '\x27' '\x27' s

def sigil : Dialect → String
  | .sqlServer => "@"
  | _ => ":"

def namedPlaceholder (d : Dialect) (name : String) : String := d.sigil ++ name

/-- What a numbered placeholder starts with. MySQL's sign stands for the next value at each
    occurrence and takes no number. -/
def numberSign : Dialect → String
  | .postgres => "$"
  | .mySql | .sqlite => "?"
  | .sqlServer => "@p"

def numberedPlaceholder (d : Dialect) (index : Nat) : String := d.numberSign ++ toString index

end Dialect

def Piece.write (d : Dialect) (spell : Hole → String) : Piece → String
  | .text s => s
  | .name _ s => d.quoteName s
  | .literal s => d.quoteLiteral s
  | .hole use => spell use

def Sql.write (d : Dialect) (spell : Hole → String) (s : Sql) : String :=
  String.join (s.map (Piece.write d spell))

def Sql.fill : Sql → List String → Sql
  | .hole _ :: rest, text :: texts => .text text :: fill rest texts
  | piece :: rest, texts => piece :: fill rest texts
  | [], _ => []

end TypedSql
