import TypedSql.Catalog

namespace TypedSql

/-- A table of a query, with the letter it goes by where it has one. -/
structure Table where
  name : String
  alias? : Option TableAlias := none
  deriving DecidableEq

/-- What stands before a column: a table's name or its letter. -/
inductive Qualifier where
  | table (name : String)
  | letter (letter : TableAlias)
  deriving DecidableEq

/-- One step into a JSON value. -/
inductive PathSegment where
  | key (key : JsonKey)
  | index (index : UInt32)
  deriving DecidableEq

/-- A way into a JSON column. Every step yields JSON, save that the last one of a path taken
    as text yields text. -/
structure JsonPath where
  segments : List PathSegment
  asText : Bool := false
  deriving DecidableEq

/-- A column, perhaps qualified, perhaps entered by a JSON path. -/
structure Field where
  name : String
  qualifier : Option Qualifier := none
  path : Option JsonPath := none
  deriving DecidableEq

namespace Table

def new (catalog : Catalog) (name : String) : Except NameError Table :=
  (catalog.check .table name).map fun () => { name }

def aliased (table : Table) (letter : Char) : Except NameError Table :=
  (TableAlias.new letter).map fun letter => { table with alias? := some letter }

/-- Fields are qualified by the table's letter if it has one, else by its name. -/
def reference (table : Table) : Qualifier :=
  match table.alias? with
  | some letter => .letter letter
  | none => .table table.name

end Table

namespace Field

def new (catalog : Catalog) (name : String) : Except NameError Field :=
  (catalog.check .field name).map fun () => { name }

def qualified (field : Field) (table : Table) : Field :=
  { field with qualifier := some table.reference }

def json (field : Field) (path : JsonPath) : Field := { field with path := some path }

/-- A bare column, neither qualified nor entered by a path. -/
def isPlain (field : Field) : Bool := field.qualifier.isNone && field.path.isNone

end Field

def Table.field (table : Table) (catalog : Catalog) (name : String) : Except NameError Field :=
  (Field.new catalog name).map fun field => field.qualified table

namespace JsonPath

def key (name : String) : Except NameError JsonPath :=
  (JsonKey.new name).map fun key => { segments := [.key key] }

def index (index : UInt32) : JsonPath := { segments := [.index index] }

def thenKey (path : JsonPath) (name : String) : Except NameError JsonPath :=
  (JsonKey.new name).map fun key => { path with segments := path.segments ++ [.key key] }

def thenIndex (path : JsonPath) (index : UInt32) : JsonPath :=
  { path with segments := path.segments ++ [.index index] }

def text (path : JsonPath) : JsonPath := { path with asText := true }

end JsonPath

end TypedSql
