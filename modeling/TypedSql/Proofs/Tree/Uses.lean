import TypedSql.Render.Update
import TypedSql.Sql.Basic

namespace TypedSql

def usedAt (depth : Nat) (params : List Param) : List Hole := params.map (Hole.mk depth)

def Operand.params : Operand → List Param
  | .field _ => []
  | .param p => [p]

def ConflictValue.params : ConflictValue → List Param
  | .param p => [p]
  | .excluded => []

def OnConflict.params (conflict : OnConflict) : List Param :=
  match conflict.action with
  | .doNothing => []
  | .doUpdate updates => updates.values.flatMap ConflictValue.params

mutual

def Expr.uses : Expr → Nat → List Hole
  | .field _, _ => []
  | .aggregate ⟨_, _, filter⟩, depth => optionalUses filter depth
  | .case ⟨whens, otherwise⟩, depth => whenUses whens depth ++ usedAt depth otherwise.toList
  | .coalesce operands, depth => usedAt depth (operands.flatMap Operand.params)
  | .nullIf left right, depth => usedAt depth (left.params ++ right.params)
  | .math call, depth => usedAt depth call.argument.toList
  | .cast _ _, _ => []
  | .window ⟨_, _, bucket, offset, fallback, ⟨_, orderBy, _⟩⟩, depth =>
    usedAt depth (bucket.toList ++ offset.toList ++ fallback.toList) ++ orderUses orderBy depth
  | .binary _ _ p, depth => usedAt depth [p]
termination_by structural e => e

def Condition.uses : Condition → Nat → List Hole
  | .simple _ _ p, depth => usedAt depth p.toList
  | .group _ items, depth => conditionUses items depth
  | .fieldComparison _ _ _, _ => []
  | .subquery _ _ query, depth => query.uses (depth + 1)
  | .between _ low high _, depth => usedAt depth [low, high]
  | .aggregate _ _ _ p, depth => usedAt depth [p]
  | .expression e _ p, depth => e.uses depth ++ usedAt depth [p]
termination_by structural condition => condition

/-- The parameters of a query, clause by clause. Assignments are taken in the order of their
    columns, a row's values too. -/
def Query.uses : Query → Nat → List Hole
  | { fields, joins, filter, having, orderBy, rows, assignments, onConflict, .. }, depth =>
    projectedUses fields depth ++ usedAt depth (rows.flatMap NameMap.values)
      ++ (sortAssignments (assignmentUses assignments depth)).flatMap Prod.snd
      ++ joinUses joins depth ++ optionalUses filter depth ++ optionalUses having depth
      ++ orderUses orderBy depth ++ usedAt depth (onConflict.elim [] OnConflict.params)
termination_by structural query => query

def optionalUses : Option Condition → Nat → List Hole
  | none, _ => []
  | some condition, depth => condition.uses depth
termination_by structural condition => condition

def conditionUses : List Condition → Nat → List Hole
  | [], _ => []
  | condition :: rest, depth => condition.uses depth ++ conditionUses rest depth
termination_by structural conditions => conditions

def whenUses : List WhenClause → Nat → List Hole
  | [], _ => []
  | ⟨condition, result⟩ :: rest, depth =>
    condition.uses depth ++ usedAt depth [result] ++ whenUses rest depth
termination_by structural whens => whens

def orderUses : List OrderBy → Nat → List Hole
  | [], _ => []
  | ⟨expr, _, _⟩ :: rest, depth => expr.uses depth ++ orderUses rest depth
termination_by structural items => items

def projectedUses : List FieldExpr → Nat → List Hole
  | [], _ => []
  | ⟨expr, _⟩ :: rest, depth => expr.uses depth ++ projectedUses rest depth
termination_by structural fields => fields

def joinUses : List Join → Nat → List Hole
  | [], _ => []
  | ⟨_, _, on⟩ :: rest, depth => optionalUses on depth ++ joinUses rest depth
termination_by structural joins => joins

def assignmentUses : List Assignment → Nat → List (Field × List Hole)
  | [], _ => []
  | ⟨target, .param p⟩ :: rest, depth => (target, usedAt depth [p]) :: assignmentUses rest depth
  | ⟨target, .expr e⟩ :: rest, depth => (target, e.uses depth) :: assignmentUses rest depth
termination_by structural assignments => assignments

end

def CompoundQuery.uses (compound : CompoundQuery) (depth : Nat) : List Hole :=
  compound.operands.flatMap (·.uses depth) ++ orderUses compound.orderBy depth

/-- The parameters of a statement in the order of its clauses, each with the number of
    subqueries around it. -/
def Statement.uses : Statement → List Hole
  | .query q => q.uses 0
  | .compound q => q.uses 0

end TypedSql
