import TypedSql.Render.Field

namespace TypedSql

def aggregateField (d : Dialect) (kind : AggregateKind) (field : Option Field)
    (missing : Missing) : Except RenderError (Option Sql) :=
  match field, kind with
  | some field, _ => (field.render d).map some
  | none, .count => .ok none
  | none, _ => .error (.missingOperand missing)

/-- An aggregate of what passes its filter. Where aggregates take no filter the argument
    becomes null for the rows that do not pass, and aggregates skip nulls. -/
def renderAggregate (c : Context) (kind : AggregateKind) (field : Option Field)
    (filter : Option (Render Sql)) : Render Sql := do
  let field ← aggregateField c.dialect kind field .aggregateField
  let opening := kind.functionName ++ "(" ++ kind.qualifier
  match filter with
  | none => pure (sql opening ++ field.getD (sql "*") ++ sql ")")
  | some condition =>
    let condition ← condition
    if c.dialect.filtersAggregates then
      pure (sql opening ++ field.getD (sql "*") ++ sql ") FILTER (WHERE " ++ condition ++ sql ")")
    else
      pure (sql (opening ++ "CASE WHEN ") ++ condition ++ sql " THEN " ++
        field.getD (sql "1") ++ sql " END)")

def renderWhen (c : Context) (condition : Render Sql) (result : Param) : Render Sql := do
  let condition ← condition
  let result ← c.param result
  pure (sql " WHEN " ++ condition ++ sql " THEN " ++ result)

/-- A choice between alternatives. Without one there is nothing to choose. -/
def renderCase (c : Context) (whens : List (Render Sql)) (otherwise : Option Param) :
    Render Sql := do
  if whens.isEmpty then Render.fail (.missingOperand .caseBranch)
  let whens ← Render.all whens
  match otherwise with
  | none => pure (sql "CASE" ++ whens.flatten ++ sql " END")
  | some param =>
    let value ← c.param param
    pure (sql "CASE" ++ whens.flatten ++ sql " ELSE " ++ value ++ sql " END")

def renderCoalesce (c : Context) (operands : List Operand) : Render Sql := do
  if operands.length < 2 then Render.fail (.missingOperand .coalesceOperands)
  else
    let parts ← Render.all (operands.map fun operand => operand.render c)
    pure (sql "COALESCE(" ++ Sql.commaList parts ++ sql ")")

def renderNullIf (c : Context) (left right : Operand) : Render Sql := do
  let left ← left.render c
  let right ← right.render c
  pure (sql "NULLIF(" ++ left ++ sql ", " ++ right ++ sql ")")

def MathCall.argument? (call : MathCall) : Except RenderError (Option Param) :=
  match call.function, call.argument with
  | .round, argument => .ok argument
  | .power, some exponent => .ok (some exponent)
  | .power, none => .error (.missingOperand .exponent)
  | _, some _ => .error (.unexpectedOperand .mathArgument)
  | _, none => .ok none

def MathCall.render (call : MathCall) (c : Context) : Render Sql := do
  let column ← call.field.render c.dialect
  match ← call.argument? with
  | none => pure (c.dialect.mathCall call.function column none)
  | some param =>
    let argument ← c.param param
    pure (c.dialect.mathCall call.function column (some argument))

def renderCast (c : Context) (field : Field) (type : CastType) : Except RenderError Sql := do
  let column ← field.render c.dialect
  let name ← c.dialect.castType type
  pure (sql "CAST(" ++ column ++ sql (" AS " ++ name ++ ")"))

def renderBinary (c : Context) (field : Field) (op : BinaryOp) (param : Param) :
    Render Sql := do
  let left ← field.render c.dialect
  let right ← c.param param
  c.dialect.binary left op right

def Direction.suffix : Direction → String
  | .asc => " ASC"
  | .desc => " DESC"

def NullsPlacement.suffix : NullsPlacement → String
  | .first => " NULLS FIRST"
  | .last => " NULLS LAST"

def renderOrderItem (c : Context) (expr : Render Sql) (direction : Direction)
    (nulls : Option NullsPlacement) : Render Sql := do
  let expr ← expr
  match nulls with
  | none => pure (expr ++ sql direction.suffix)
  | some nulls =>
    c.dialect.require .nullsOrdering
    pure (expr ++ sql (direction.suffix ++ nulls.suffix))

def renderFieldExpr (expr : Render Sql) (alias? : Option Alias) : Render Sql := do
  let expr ← expr
  match alias? with
  | none => pure expr
  | some output => pure (expr ++ [.text " AS ", .name .outputAlias output.name])

end TypedSql
