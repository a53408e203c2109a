import TypedSql.Render.Expression

namespace TypedSql

def FrameUnits.keyword : FrameUnits → String
  | .rows => "ROWS"
  | .range => "RANGE"

def FrameBound.text : FrameBound → String
  | .unboundedPreceding => "UNBOUNDED PRECEDING"
  | .preceding n => toString n.toNat ++ " PRECEDING"
  | .currentRow => "CURRENT ROW"
  | .following n => toString n.toNat ++ " FOLLOWING"
  | .unboundedFollowing => "UNBOUNDED FOLLOWING"

/-- A frame without an end reaches to the current row. The kinds of its bounds have to come
    in order. -/
def Frame.render (frame : Frame) : Except RenderError Sql :=
  if frame.start = .unboundedFollowing then .error (.invalidFrame .startsAtEnd)
  else match frame.stop with
    | none =>
      if frame.start.rank > FrameBound.currentRow.rank then .error (.invalidFrame .openEnd)
      else .ok (sql (frame.units.keyword ++ " " ++ frame.start.text))
    | some stop =>
      if stop = .unboundedPreceding then .error (.invalidFrame .endsAtStart)
      else if frame.start.rank > stop.rank then .error (.invalidFrame .inverted)
      else .ok (sql (frame.units.keyword ++ " BETWEEN " ++ frame.start.text ++ " AND " ++
        stop.text))

namespace WindowCall

/-- Operands that only some functions take must be absent elsewhere. -/
def checkOperands (w : WindowCall) : Except RenderError Unit :=
  if w.function ≠ .ntile ∧ w.bucket.isSome then .error (.unexpectedOperand .bucketCount)
  else if w.function ≠ .lag ∧ w.function ≠ .lead ∧ (w.offset.isSome ∨ w.fallback.isSome) then
    .error (.unexpectedOperand .shift)
  else .ok ()

/-- The arguments of LAG and LEAD. The fallback is positional, so an offset that is not given
    has to be spelled before it. -/
def shiftArguments (w : WindowCall) (c : Context) (column : Sql) : Render (List Sql) :=
  match w.offset, w.fallback with
  | none, none => pure [column]
  | some offset, none => do
    let offset ← c.param offset
    pure [column, offset]
  | some offset, some fallback => do
    let offset ← c.param offset
    let fallback ← c.param fallback
    pure [column, offset, fallback]
  | none, some fallback => do
    let fallback ← c.param fallback
    pure [column, sql "1", fallback]

def renderCall (w : WindowCall) (c : Context) : Render Sql := do
  w.checkOperands
  match w.function with
  | .rowNumber | .rank | .denseRank =>
    if w.field.isSome then Render.fail (.unexpectedOperand .rankingField)
    else pure (sql (w.function.display ++ "()"))
  | .ntile =>
    if w.field.isSome then Render.fail (.unexpectedOperand .bucketField)
    else match w.bucket with
      | none => Render.fail (.missingOperand .bucketCount)
      | some bucket =>
        let bucket ← c.param bucket
        pure (sql "NTILE(" ++ bucket ++ sql ")")
  | .lag | .lead =>
    let column ← renderRequired w.field .shiftedField c.dialect
    let arguments ← w.shiftArguments c column
    pure (sql (w.function.display ++ "(") ++ Sql.commaList arguments ++ sql ")")
  | .firstValue | .lastValue =>
    let column ← renderRequired w.field .edgeField c.dialect
    pure (sql (w.function.display ++ "(") ++ column ++ sql ")")
  | .aggregate kind =>
    let field ← aggregateField c.dialect kind w.field .windowAggregateField
    pure (sql (kind.functionName ++ "(" ++ kind.qualifier) ++ field.getD (sql "*") ++ sql ")")

def partitionParts (d : Dialect) (partitionBy : List Field) : Except RenderError (List Sql) :=
  if partitionBy.isEmpty then .ok []
  else (renderFields partitionBy d).map fun fields => [sql "PARTITION BY " ++ fields]

def orderParts (orderBy : List (Render Sql)) : Render (List Sql) := do
  if orderBy.isEmpty then pure []
  else
    let items ← Render.all orderBy
    pure [sql "ORDER BY " ++ Sql.commaList items]

def frameParts (frame : Option Frame) : Except RenderError (List Sql) :=
  match frame with
  | none => .ok []
  | some frame => frame.render.map fun text => [text]

/-- The rows that the function ranges over, without the brackets. -/
def renderOver (c : Context) (partitionBy : List Field) (orderBy : List (Render Sql))
    (frame : Option Frame) : Render Sql := do
  let partitioned ← partitionParts c.dialect partitionBy
  let ordered ← orderParts orderBy
  let framed ← frameParts frame
  pure (Sql.join " " (partitioned ++ ordered ++ framed))

def render (w : WindowCall) (c : Context) (orderBy : List (Render Sql)) : Render Sql := do
  let call ← w.renderCall c
  let rows ← renderOver c w.window.partitionBy orderBy w.window.frame
  pure (call ++ sql " OVER (" ++ rows ++ sql ")")

end WindowCall

end TypedSql
