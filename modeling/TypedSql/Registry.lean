import TypedSql.Catalog
import TypedSql.NameMap

namespace TypedSql

/-- Tables with their fields, and output aliases, as they were registered. -/
structure Registry where
  tables : NameMap NameSet := .empty
  aliases : NameSet := .empty

structure Model where
  table : String
  fields : List String
  aliases : List String := []

namespace Registry

def empty : Registry := {}

def registerTable (r : Registry) (table : String) (fields : List String) : Registry :=
  let known := (r.tables.get? table).getD .empty
  { r with tables := r.tables.insert table (known.addAll fields) }

def registerAlias (r : Registry) (name : String) : Registry :=
  { r with aliases := r.aliases.add name }

def register (r : Registry) (model : Model) : Registry :=
  model.aliases.foldl registerAlias (r.registerTable model.table model.fields)

def fieldsOf? (r : Registry) (table : String) : Option (List String) :=
  (r.tables.get? table).map (·.names)

def size (r : Registry) : Nat := r.tables.size

def isEmpty (r : Registry) : Bool := r.tables.isEmpty

def tableExists (r : Registry) (name : String) : Bool := r.tables.contains name

def fieldExists (r : Registry) (name : String) : Bool :=
  r.tables.values.any fun fields => fields.contains name

def aliasRegistered (r : Registry) (name : String) : Bool := r.aliases.contains name

def tableNames (r : Registry) : List String := r.tables.names

def fieldNames (r : Registry) : List String :=
  (NameSet.ofNames (r.tables.values.flatMap (·.names))).names

def catalog (r : Registry) : Catalog where
  tableExists := r.tableExists
  fieldExists := r.fieldExists
  aliasRegistered := r.aliasRegistered
  tableNames := r.tableNames
  fieldNames := r.fieldNames

end Registry

end TypedSql
