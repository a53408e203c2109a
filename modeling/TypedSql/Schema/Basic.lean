import TypedSql.Catalog
import TypedSql.NameMap

namespace TypedSql

structure ColumnDef where
  name : String
  type : String
  nullable : Bool := true
  primaryKey : Bool := false
  unique : Bool := false
  references : Option String := none
  defaultValue : Option String := none
  deriving DecidableEq, Repr

structure TableDef where
  name : String
  columns : List ColumnDef := []
  deriving DecidableEq, Repr

/-- Tables with their columns, and output aliases that need no further check. -/
structure Schema where
  tables : List TableDef := []
  aliases : List String := []
  deriving DecidableEq, Repr

def TableDef.findColumn? (table : TableDef) (name : String) : Option ColumnDef :=
  table.columns.find? fun column => column.name == name

namespace Schema

def findTable? (s : Schema) (name : String) : Option TableDef :=
  s.tables.find? fun table => table.name == name

def tableExists (s : Schema) (name : String) : Bool := (s.findTable? name).isSome

def fieldExists (s : Schema) (name : String) : Bool :=
  s.tables.any fun table => (table.findColumn? name).isSome

def aliasRegistered (s : Schema) (name : String) : Bool := s.aliases.contains name

def tableNames (s : Schema) : List String := s.tables.map (·.name)

def fieldNames (s : Schema) : List String :=
  (NameSet.ofNames (s.tables.flatMap fun table => table.columns.map (·.name))).names

def catalog (s : Schema) : Catalog where
  tableExists := s.tableExists
  fieldExists := s.fieldExists
  aliasRegistered := s.aliasRegistered
  tableNames := s.tableNames
  fieldNames := s.fieldNames

end Schema

end TypedSql
