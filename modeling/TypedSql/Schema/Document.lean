import TypedSql.Document.Decoder
import TypedSql.Json.Printer
import TypedSql.Schema.Script

namespace TypedSql

open Members (required optional defaulted)

def ColumnDef.toJson (c : ColumnDef) : Json :=
  .obj [("name", .str c.name), ("type", .str c.type), ("nullable", .bool c.nullable),
    ("primary_key", .bool c.primaryKey), ("unique", .bool c.unique),
    ("references", .ofOption .str c.references),
    ("default_value", .ofOption .str c.defaultValue)]

def TableDef.toJson (t : TableDef) : Json :=
  .obj [("name", .str t.name), ("columns", .arr (t.columns.map ColumnDef.toJson))]

def Schema.toJson (s : Schema) : Json :=
  .obj [("tables", .arr (s.tables.map TableDef.toJson)), ("aliases", .ofStrings s.aliases)]

def ColumnDef.decode : Decoder ColumnDef := .object <|
  ColumnDef.mk <$> required "name" .string <*> required "type" .string
    <*> defaulted "nullable" true .bool <*> defaulted "primary_key" false .bool
    <*> defaulted "unique" false .bool <*> optional "references" .string
    <*> optional "default_value" .string

def TableDef.decode : Decoder TableDef := .object <|
  TableDef.mk <$> required "name" .string <*> defaulted "columns" [] (.list ColumnDef.decode)

def Schema.decode : Decoder Schema := .object <|
  Schema.mk <$> defaulted "tables" [] (.list TableDef.decode)
    <*> defaulted "aliases" [] (.list .string)

end TypedSql
