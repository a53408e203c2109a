import TypedSql.Tree.Basic

namespace TypedSql

abbrev Occurrence := NameKind × String

def PathSegment.occurrences : PathSegment → List Occurrence
  | .key k => [(.jsonKey, k.name)]
  | .index _ => []

def JsonPath.occurrences (p : JsonPath) : List Occurrence :=
  p.segments.flatMap PathSegment.occurrences

/-- A letter that qualifies a field is no name. -/
def Qualifier.occurrences : Qualifier → List Occurrence
  | .table name => [(.table, name)]
  | .letter _ => []

def Field.occurrences (f : Field) : List Occurrence :=
  [(.field, f.name)] ++ f.qualifier.elim [] Qualifier.occurrences
    ++ f.path.elim [] JsonPath.occurrences

def Table.occurrences (t : Table) : List Occurrence := [(.table, t.name)]

def Operand.occurrences : Operand → List Occurrence
  | .field f => f.occurrences
  | .param _ => []

def Alias.occurrences (a : Alias) : List Occurrence := [(.outputAlias, a.name)]

def Row.occurrences (r : Row) : List Occurrence := r.names.map fun name => (.field, name)

def ConflictAction.occurrences : ConflictAction → List Occurrence
  | .doNothing => []
  | .doUpdate updates => updates.names.map fun name => (.field, name)

def OnConflict.occurrences (o : OnConflict) : List Occurrence :=
  o.target.flatMap Field.occurrences ++ o.action.occurrences

mutual

def Expr.occurrences : Expr → List Occurrence
  | .field f => f.occurrences
  | .aggregate ⟨_, f, filter⟩ => f.elim [] Field.occurrences ++ optionalOccurrences filter
  | .case ⟨whens, _⟩ => whenOccurrences whens
  | .coalesce operands => operands.flatMap Operand.occurrences
  | .nullIf left right => left.occurrences ++ right.occurrences
  | .math call => call.field.occurrences
  | .cast f _ => f.occurrences
  | .window ⟨_, f, _, _, _, ⟨partitionBy, orderBy, _⟩⟩ =>
    f.elim [] Field.occurrences ++ partitionBy.flatMap Field.occurrences
      ++ orderOccurrences orderBy
  | .binary f _ _ => f.occurrences
termination_by structural e => e

def Condition.occurrences : Condition → List Occurrence
  | .simple f _ _ => f.occurrences
  | .group _ items => conditionOccurrences items
  | .fieldComparison left _ right => left.occurrences ++ right.occurrences
  | .subquery f _ query => f.elim [] Field.occurrences ++ query.occurrences
  | .between f _ _ _ => f.occurrences
  | .aggregate _ f _ _ => f.elim [] Field.occurrences
  | .expression e _ _ => e.occurrences
termination_by structural condition => condition

/-- The names of a query, clause by clause. -/
def Query.occurrences : Query → List Occurrence
  | { table, distinctOn, fields, joins, filter, groupBy, having, orderBy, rows, assignments,
      returning, onConflict, .. } =>
    table.occurrences ++ distinctOn.flatMap Field.occurrences ++ fieldExprOccurrences fields
      ++ joinOccurrences joins ++ optionalOccurrences filter
      ++ groupBy.flatMap Field.occurrences ++ optionalOccurrences having
      ++ orderOccurrences orderBy ++ rows.flatMap Row.occurrences
      ++ assignmentOccurrences assignments ++ returning.flatMap Field.occurrences
      ++ onConflict.elim [] OnConflict.occurrences
termination_by structural query => query

def optionalOccurrences : Option Condition → List Occurrence
  | none => []
  | some condition => condition.occurrences
termination_by structural condition => condition

def conditionOccurrences : List Condition → List Occurrence
  | [] => []
  | condition :: rest => condition.occurrences ++ conditionOccurrences rest
termination_by structural conditions => conditions

def whenOccurrences : List WhenClause → List Occurrence
  | [] => []
  | ⟨condition, _⟩ :: rest => condition.occurrences ++ whenOccurrences rest
termination_by structural whens => whens

def orderOccurrences : List OrderBy → List Occurrence
  | [] => []
  | ⟨expr, _, _⟩ :: rest => expr.occurrences ++ orderOccurrences rest
termination_by structural items => items

def fieldExprOccurrences : List FieldExpr → List Occurrence
  | [] => []
  | ⟨expr, alias?⟩ :: rest =>
    expr.occurrences ++ alias?.elim [] Alias.occurrences ++ fieldExprOccurrences rest
termination_by structural fields => fields

def joinOccurrences : List Join → List Occurrence
  | [] => []
  | ⟨_, table, on⟩ :: rest =>
    table.occurrences ++ optionalOccurrences on ++ joinOccurrences rest
termination_by structural joins => joins

def assignmentOccurrences : List Assignment → List Occurrence
  | [] => []
  | ⟨target, .param _⟩ :: rest => target.occurrences ++ assignmentOccurrences rest
  | ⟨target, .expr e⟩ :: rest =>
    target.occurrences ++ e.occurrences ++ assignmentOccurrences rest
termination_by structural assignments => assignments

end

def CompoundQuery.occurrences (compound : CompoundQuery) : List Occurrence :=
  compound.operands.flatMap Query.occurrences ++ orderOccurrences compound.orderBy

def Statement.occurrences : Statement → List Occurrence
  | .query q => q.occurrences
  | .compound q => q.occurrences

/-- What a catalog has against the names, one fault for each refused occurrence. -/
def Catalog.faults (catalog : Catalog) (names : List Occurrence) : List NameError :=
  names.filterMap fun occurrence =>
    match catalog.check occurrence.1 occurrence.2 with
    | .ok () => none
    | .error e => some e

namespace Catalog

def validateQuery (catalog : Catalog) (q : Query) : List NameError :=
  catalog.faults q.occurrences

def validateCompound (catalog : Catalog) (compound : CompoundQuery) : List NameError :=
  catalog.faults compound.occurrences

def validateStatement (catalog : Catalog) (statement : Statement) : List NameError :=
  catalog.faults statement.occurrences

end Catalog

end TypedSql
