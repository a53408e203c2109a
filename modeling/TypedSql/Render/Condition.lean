import TypedSql.Render.Window

namespace TypedSql

inductive Scope where
  | whereClause | having | joinOn | caseWhen | filter
  deriving DecidableEq, Repr

/-- A comparison of two sides. Case-insensitive patterns and membership are each dialect's
    own affair. -/
def compareSides (d : Dialect) (left : Sql) (op : Operator) (right : Sql) : Sql :=
  match op with
  | .iLike => d.iLike left right false
  | .notILike => d.iLike left right true
  | .isIn => d.inArray left right
  | .notIn => d.notInArray left right
  | op => left ++ sql (" " ++ op.symbol ++ " ") ++ right

def renderSimple (c : Context) (field : Field) (op : Operator) (param : Option Param) :
    Render Sql := do
  let column ← field.render c.dialect
  if op.isUnary then
    if param.isSome then Render.fail (.unexpectedOperand .nullParam)
    else pure (column ++ sql (" " ++ op.symbol))
  else if !op.takesParam then Render.fail (.invalidOperator op .simple)
  else match param with
    | none => Render.fail (.missingOperand .conditionParam)
    | some param =>
      let placeholder ← c.param param
      pure (compareSides c.dialect column op placeholder)

def renderFieldComparison (c : Context) (left : Field) (op : Operator) (right : Field) :
    Except RenderError Sql := do
  if op.isComparison || op.isPattern then
    let left ← left.render c.dialect
    let right ← right.render c.dialect
    pure (compareSides c.dialect left op right)
  else .error (.invalidOperator op .fields)

/-- What stands before a subquery: nothing for an existence test, else a field. -/
def subqueryLeft (c : Context) (field : Option Field) (op : Operator) :
    Except RenderError Sql :=
  match op.isExistence, field with
  | true, some _ => .error (.unexpectedOperand .existsField)
  | true, none => .ok (sql (op.symbol ++ " "))
  | false, some field =>
    if op.isMembership || op.isComparison then
      (field.render c.dialect).map fun column => column ++ sql (" " ++ op.symbol ++ " ")
    else .error (.invalidOperator op .subquery)
  | false, none => .error (.missingOperand .subqueryField)

/-- Only a reading query can be a subquery. -/
def checkSubquery (operation : Operation) : Except RenderError Unit :=
  match operation with
  | .select | .count => .ok ()
  | operation => .error (.invalidSubquery operation)

def renderSubquery (c : Context) (field : Option Field) (op : Operator)
    (operation : Operation) (inner : Context → Render Sql) : Render Sql := do
  let left ← subqueryLeft c field op
  checkSubquery operation
  let child ← c.enter
  let query ← inner child
  pure (left ++ Sql.parenthesised query)

def renderBetween (c : Context) (field : Field) (low high : Param) (negated : Bool) :
    Render Sql := do
  let column ← field.render c.dialect
  let low ← c.param low
  let high ← c.param high
  pure (column ++ sql (if negated then " NOT BETWEEN " else " BETWEEN ") ++ low ++
    sql " AND " ++ high)

/-- An aggregate against a parameter, in HAVING only. -/
def renderAggregateCondition (c : Context) (scope : Scope) (kind : AggregateKind)
    (field : Option Field) (op : Operator) (param : Param) : Render Sql := do
  if scope ≠ .having then Render.fail .aggregateOutsideHaving
  else if !op.isComparison then Render.fail (.invalidOperator op .aggregate)
  else
    let left ← renderAggregate c kind field none
    let placeholder ← c.param param
    pure (left ++ sql (" " ++ op.symbol ++ " ") ++ placeholder)

def renderExpressionCondition (c : Context) (scope : Scope) (isAggregate : Bool)
    (left : Render Sql) (op : Operator) (param : Param) : Render Sql := do
  if !(op.isComparison || op.isPattern) then Render.fail (.invalidOperator op .expression)
  else if isAggregate && scope ≠ .having then Render.fail .aggregateOutsideHaving
  else
    let left ← left
    let placeholder ← c.param param
    pure (compareSides c.dialect left op placeholder)

/-- Two or more conditions. Inside another group they are put in brackets. -/
def renderGroup (op : Connective) (nested : Bool) (items : List (Render Sql)) :
    Render Sql := do
  let parts ← Render.all items
  let joined := Sql.join (" " ++ op.keyword ++ " ") parts
  pure (if nested then Sql.parenthesised joined else joined)

end TypedSql
