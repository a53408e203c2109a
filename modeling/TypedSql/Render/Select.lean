import TypedSql.Render.Clause

namespace TypedSql

def renderDistinct (d : Dialect) (distinct : Bool) (distinctOn : List Field) :
    Except RenderError Sql := do
  if distinct then pure (sql "DISTINCT ")
  else if distinctOn.isEmpty then pure []
  else
    d.require .distinctOn
    let fields ← renderFields distinctOn d
    pure (sql "DISTINCT ON (" ++ fields ++ sql ") ")

def renderProjection (fields : List (Render Sql)) : Render Sql := do
  if fields.isEmpty then pure (sql "*")
  else
    let parts ← Render.all fields
    pure (Sql.commaList parts)

def renderGroupBy (d : Dialect) (groupBy : List Field) : Except RenderError Sql := do
  if groupBy.isEmpty then pure []
  else
    let fields ← renderFields groupBy d
    pure (sql " GROUP BY " ++ fields)

def renderLock (d : Dialect) (lock : Option RowLock) : Except RenderError (Sql × Sql) := do
  match lock with
  | none => pure ([], [])
  | some lock =>
    match ← d.lockClause lock with
    | .suffix text => pure ([], sql text)
    | .tableHint text => pure (sql (" " ++ text), [])

/-- The rules of a selection that no single clause can break. -/
def Query.checkSelect (q : Query) : Except RenderError Unit :=
  if q.distinct && !q.distinctOn.isEmpty then .error .conflictingDistinct
  else if q.having.isSome && q.groupBy.isEmpty then .error .havingWithoutGroupBy
  else .ok ()

def renderSelect (c : Context) (q : Query) (parts : QueryParts) : Render Sql := do
  q.checkClauses
  q.checkSelect
  let distinct ← renderDistinct c.dialect q.distinct q.distinctOn
  let projection ← renderProjection parts.fields
  let lock ← renderLock c.dialect q.lock
  let joins ← renderJoins parts.joins
  let filter ← renderConditional "WHERE" parts.filter
  let groupBy ← renderGroupBy c.dialect q.groupBy
  let having ← renderConditional "HAVING" parts.having
  let orderBy ← renderOrderClause parts.orderBy
  let pagination := sql (c.dialect.pagination q.limit q.offset (!q.orderBy.isEmpty))
  pure (sql "SELECT " ++ distinct ++ projection ++ sql " FROM " ++ q.table.render ++ lock.1 ++
    joins ++ filter ++ groupBy ++ having ++ orderBy ++ pagination ++ lock.2)

def renderCount (q : Query) (parts : QueryParts) : Render Sql := do
  q.checkClauses
  let joins ← renderJoins parts.joins
  let filter ← renderConditional "WHERE" parts.filter
  pure (sql "SELECT COUNT(*) FROM " ++ q.table.render ++ joins ++ filter)

end TypedSql
