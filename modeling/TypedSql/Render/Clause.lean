import TypedSql.Render.Condition

namespace TypedSql

def Clause.isPresent (q : Query) : Clause → Bool
  | .tableAlias => q.table.alias?.isSome
  | .distinct => q.distinct
  | .distinctOn => !q.distinctOn.isEmpty
  | .projection => !q.fields.isEmpty
  | .join => !q.joins.isEmpty
  | .filter => q.filter.isSome
  | .groupBy => !q.groupBy.isEmpty
  | .having => q.having.isSome
  | .orderBy => !q.orderBy.isEmpty
  | .limit => q.limit.isSome
  | .offset => q.offset.isSome
  | .lock => q.lock.isSome
  | .values => !q.rows.isEmpty
  | .set => !q.assignments.isEmpty
  | .returning => !q.returning.isEmpty
  | .onConflict => q.onConflict.isSome

def Operation.clauses : Operation → List Clause
  | .select =>
    [.tableAlias, .distinct, .distinctOn, .projection, .join, .filter, .groupBy, .having,
      .orderBy, .limit, .offset, .lock]
  | .count => [.tableAlias, .join, .filter]
  | .insert => [.values, .returning, .onConflict]
  | .update => [.set, .filter, .returning]
  | .delete => [.filter, .returning]

def Query.checkClauses (q : Query) : Except RenderError Unit :=
  match Clause.all.find? fun clause =>
      !q.operation.clauses.contains clause && clause.isPresent q with
  | some clause => .error (.clauseNotAllowed q.operation clause)
  | none => .ok ()

/-- The parts of a query that hold expressions or conditions, each rendered on its own. An
    assignment keeps its target. -/
structure QueryParts where
  fields : List (Render Sql)
  joins : List (Render Sql)
  filter : Option (Render Sql)
  having : Option (Render Sql)
  orderBy : List (Render Sql)
  assignments : List (Field × Render Sql)

def renderJoin (c : Context) (join : Join) (on : Option (Render Sql)) : Render Sql := do
  if !join.isWellFormed then Render.fail (.invalidJoin join.kind join.table.name)
  else
    c.dialect.require (.join join.kind)
    let head := sql (" " ++ join.kind.keyword ++ " JOIN ") ++ join.table.render
    match on with
    | none => pure head
    | some on =>
      let on ← on
      pure (head ++ sql " ON " ++ on)

def renderJoins (joins : List (Render Sql)) : Render Sql := do
  let parts ← Render.all joins
  pure parts.flatten

def renderConditional (keyword : String) (condition : Option (Render Sql)) : Render Sql :=
  match condition with
  | none => pure []
  | some condition => do
    let text ← condition
    pure (sql (" " ++ keyword ++ " ") ++ text)

def renderOrderClause (orderBy : List (Render Sql)) : Render Sql := do
  if orderBy.isEmpty then pure []
  else
    let items ← Render.all orderBy
    pure (sql " ORDER BY " ++ Sql.commaList items)

/-- Which state of the rows an OUTPUT clause reports. -/
inductive OutputSource where
  | inserted | deleted
  deriving DecidableEq, Repr

def OutputSource.keyword : OutputSource → String
  | .inserted => "INSERTED"
  | .deleted => "DELETED"

def renderOutputColumn (d : Dialect) (source : OutputSource) (field : Field) :
    Except RenderError Sql :=
  if field.isPlain then .ok [.text (source.keyword ++ "."), .name .field field.name]
  else .error (.unsupported d .qualifiedOutput)

def renderOutput (d : Dialect) (source : OutputSource) (returning : List Field) :
    Except RenderError Sql :=
  if returning.isEmpty || d.returningStyle ≠ .output then .ok []
  else
    (returning.mapM (renderOutputColumn d source)).map fun columns =>
      sql " OUTPUT " ++ Sql.commaList columns

def renderReturning (d : Dialect) (returning : List Field) : Except RenderError Sql :=
  if returning.isEmpty then .ok []
  else match d.returningStyle with
    | .returning => (renderFields returning d).map fun fields => sql " RETURNING " ++ fields
    | .output => .ok []
    | .unsupported => .error (.unsupported d .returning)

end TypedSql
