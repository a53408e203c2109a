import TypedSql.Dialect.Spelling
import TypedSql.Tree.Basic

namespace TypedSql

def Table.render (table : Table) : Sql :=
  match table.alias? with
  | some letter => tableWithAlias [.name .table table.name] letter
  | none => [.name .table table.name]

def Field.column (field : Field) : Sql :=
  match field.qualifier with
  | none => [.name .field field.name]
  | some (.table table) => [.name .table table, .text ".", .name .field field.name]
  | some (.letter letter) => [.text (letter.display ++ "."), .name .field field.name]

/-- Every use of a field is rendered here, so what a dialect says of paths holds everywhere. -/
def Field.render (field : Field) (d : Dialect) : Except RenderError Sql :=
  match field.path with
  | none => .ok field.column
  | some path =>
    if path.segments.isEmpty then .error (.missingOperand .pathSegment)
    else d.jsonAccess field.column path

def renderFields (fields : List Field) (d : Dialect) : Except RenderError Sql :=
  (fields.mapM (Field.render · d)).map Sql.commaList

def Operand.render (operand : Operand) (c : Context) : Render Sql :=
  match operand with
  | .field f => .ofExcept (f.render c.dialect)
  | .param p => c.param p

def renderRequired (field : Option Field) (missing : Missing) (d : Dialect) :
    Except RenderError Sql :=
  match field with
  | some field => field.render d
  | none => .error (.missingOperand missing)

end TypedSql
