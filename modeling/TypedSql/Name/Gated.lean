import TypedSql.Name.Basic

namespace TypedSql

/-- A named placeholder. It carries no value, and its name has passed the gate. -/
structure Param where
  name : String
  admitted : checkName .parameter name = .ok ()
  deriving DecidableEq

def Param.new (name : String) : Except NameError Param :=
  match h : checkName .parameter name with
  | .ok () => .ok ⟨name, h⟩
  | .error e => .error e

/-- The spelling of a placeholder where no dialect is chosen. -/
def Param.display (p : Param) : String := ":" ++ p.name

structure JsonKey where
  name : String
  admitted : checkName .jsonKey name = .ok ()
  deriving DecidableEq

def JsonKey.new (name : String) : Except NameError JsonKey :=
  match h : checkName .jsonKey name with
  | .ok () => .ok ⟨name, h⟩
  | .error e => .error e

structure TableAlias where
  letter : Char
  admitted : letter.isLower = true
  deriving DecidableEq

def TableAlias.new (letter : Char) : Except NameError TableAlias :=
  if h : letter.isLower = true then .ok ⟨letter, h⟩
  else .error (.badTableAlias letter.toString)

def TableAlias.display (a : TableAlias) : String := a.letter.toString

/-- The output name of a projected expression. Names that a catalog vouches for need not be
    words, so the type admits every text. -/
structure Alias where
  name : String
  deriving DecidableEq, Repr

def Alias.new (name : String) : Except NameError Alias :=
  (checkName .outputAlias name).map fun () => ⟨name⟩

/-- Admits what a document may carry: any word. -/
def Alias.ofWord (name : String) : Except NameError Alias :=
  (checkWord .outputAlias name).map fun () => ⟨name⟩

end TypedSql
