import TypedSql.Render.Clause

namespace TypedSql

/-- Rows fit together when they fill the same columns. -/
def Row.sameColumns (a b : Row) : Bool := a.names == b.names

/-- The rows of an insertion: at least one, with at least one column, all of one shape. -/
def checkRows (rows : List Row) : Except RenderError Row :=
  match rows with
  | [] => .error (.missingOperand .valueRow)
  | first :: _ =>
    if first.isEmpty then .error (.missingOperand .insertColumn)
    else match rows.findIdx? fun row => !row.sameColumns first with
      | some row => .error (.rowShapeMismatch row)
      | none => .ok first

def renderTuple (c : Context) (row : Row) : Render Sql := do
  let values ← Render.all (row.values.map c.param)
  pure (Sql.parenthesised (Sql.commaList values))

/-- How an insertion starts. MySQL leaves out rows that exist already by another verb. -/
def insertKeyword (d : Dialect) (conflict : Option OnConflict) : String :=
  match d.upsertStyle, conflict with
  | .onDuplicateKey, some ⟨_, .doNothing⟩ => "INSERT IGNORE INTO "
  | _, _ => "INSERT INTO "

def renderTargetColumn (field : Field) : Except RenderError Sql :=
  if field.isPlain then .ok [.name .field field.name]
  else .error (.unexpectedOperand .conflictTarget)

def renderTarget (target : List Field) : Except RenderError Sql :=
  if target.isEmpty then .ok []
  else (target.mapM renderTargetColumn).map fun columns =>
    sql " (" ++ Sql.commaList columns ++ sql ")"

def renderConflictSet (c : Context) (rejected : String → Sql) (update : String × ConflictValue) :
    Render Sql :=
  let target := [.name .field update.1, .text " = "]
  match update.2 with
  | .param param => do
    let value ← c.param param
    pure (target ++ value)
  | .excluded => pure (target ++ rejected update.1)

def renderConflictSets (c : Context) (rejected : String → Sql) (updates : NameMap ConflictValue) :
    Render Sql := do
  let sets ← Render.all (updates.entries.map (renderConflictSet c rejected))
  pure (Sql.commaList sets)

def renderOnConflict (c : Context) (conflict : OnConflict) : Render Sql := do
  let target ← renderTarget conflict.target
  match conflict.action with
  | .doNothing => pure (sql " ON CONFLICT" ++ target ++ sql " DO NOTHING")
  | .doUpdate updates =>
    if conflict.target.isEmpty then Render.fail (.missingOperand .conflictTarget)
    else if updates.isEmpty then Render.fail (.missingOperand .conflictAssignment)
    else
      let sets ← renderConflictSets c (fun column => [.text "EXCLUDED.", .name .field column]) updates
      pure (sql " ON CONFLICT" ++ target ++ sql " DO UPDATE SET " ++ sets)

/-- MySQL resolves conflicts by any key, so no target is written. -/
def renderOnDuplicateKey (c : Context) (conflict : OnConflict) : Render Sql := do
  match conflict.action with
  | .doNothing => pure []
  | .doUpdate updates =>
    if updates.isEmpty then Render.fail (.missingOperand .duplicateKeyAssignment)
    else
      let sets ← renderConflictSets c
        (fun column => [.text "VALUES(", .name .field column, .text ")"]) updates
      pure (sql " ON DUPLICATE KEY UPDATE " ++ sets)

def renderUpsert (c : Context) (conflict : Option OnConflict) : Render Sql :=
  match conflict with
  | none => pure []
  | some conflict =>
    match c.dialect.upsertStyle with
    | .onConflict => renderOnConflict c conflict
    | .onDuplicateKey => renderOnDuplicateKey c conflict
    | .unsupported => Render.fail (.unsupported c.dialect .onConflict)

def renderInsert (c : Context) (q : Query) : Render Sql := do
  q.checkClauses
  let first ← checkRows q.rows
  let columns := Sql.commaList (first.names.map fun column => [.name .field column])
  let tuples ← Render.all (q.rows.map (renderTuple c))
  let output ← renderOutput c.dialect .inserted q.returning
  let upsert ← renderUpsert c q.onConflict
  let returning ← renderReturning c.dialect q.returning
  pure (sql (insertKeyword c.dialect q.onConflict) ++ q.table.render ++ sql " (" ++ columns ++
    sql ")" ++ output ++ sql " VALUES " ++ Sql.commaList tuples ++ upsert ++ returning)

end TypedSql
