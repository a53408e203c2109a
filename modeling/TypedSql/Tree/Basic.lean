import TypedSql.NameMap
import TypedSql.Tree.Field
import TypedSql.Tree.Operator

namespace TypedSql

/-- A field or a parameter; literal values never occur. -/
inductive Operand where
  | field (field : Field)
  | param (param : Param)
  deriving DecidableEq

structure MathCall where
  function : MathFunction
  field : Field
  argument : Option Param := none
  deriving DecidableEq

/-- The parameters of one inserted row, by column. -/
abbrev Row := NameMap Param

/-- What a conflicting row's column is set to: a parameter, or what would have been
    inserted. -/
inductive ConflictValue where
  | param (param : Param)
  | excluded
  deriving DecidableEq

inductive ConflictAction where
  | doNothing
  | doUpdate (updates : NameMap ConflictValue)

/-- What an insertion does about a row that exists already. -/
structure OnConflict where
  target : List Field := []
  action : ConflictAction

mutual

inductive Expr where
  | field (field : Field)
  | aggregate (call : AggregateCall)
  | case (cases : CaseExpr)
  | coalesce (operands : List Operand)
  | nullIf (left right : Operand)
  | math (call : MathCall)
  | cast (field : Field) (type : CastType)
  | window (call : WindowCall)
  | binary (field : Field) (op : BinaryOp) (param : Param)

/-- An aggregate over the rows that pass the filter, if there is one. -/
structure AggregateCall where
  kind : AggregateKind
  field : Option Field
  filter : Option Condition

structure WhenClause where
  condition : Condition
  result : Param

/-- The first alternative whose condition holds gives the value. -/
structure CaseExpr where
  whens : List WhenClause
  otherwise : Option Param

structure OrderBy where
  expr : Expr
  direction : Direction
  nulls : Option NullsPlacement

/-- The rows that a window function ranges over. -/
structure WindowSpec where
  partitionBy : List Field
  orderBy : List OrderBy
  frame : Option Frame

/-- A window function. `bucket` is for NTILE; `offset` and `fallback` are for LAG and LEAD. -/
structure WindowCall where
  function : WindowFunction
  field : Option Field
  bucket : Option Param
  offset : Option Param
  fallback : Option Param
  window : WindowSpec

/-- A predicate. An aggregate condition compares an aggregate with a parameter and belongs
    into HAVING. -/
inductive Condition where
  | simple (field : Field) (op : Operator) (param : Option Param)
  | group (op : Connective) (items : List Condition)
  | fieldComparison (left : Field) (op : Operator) (right : Field)
  | subquery (field : Option Field) (op : Operator) (query : Query)
  | between (field : Field) (low high : Param) (negated : Bool)
  | aggregate (kind : AggregateKind) (field : Option Field) (op : Operator) (param : Param)
  | expression (expr : Expr) (op : Operator) (param : Param)

structure FieldExpr where
  expr : Expr
  alias? : Option Alias

structure Join where
  kind : JoinKind
  table : Table
  on : Option Condition

inductive AssignValue where
  | param (param : Param)
  | expr (expr : Expr)

structure Assignment where
  field : Field
  value : AssignValue

/-- One statement of any operation. A clause that its operation has no place for is refused
    when the query is rendered. -/
structure Query where
  operation : Operation
  table : Table
  distinct : Bool := false
  distinctOn : List Field := []
  fields : List FieldExpr := []
  joins : List Join := []
  filter : Option Condition := none
  groupBy : List Field := []
  having : Option Condition := none
  orderBy : List OrderBy := []
  limit : Option UInt64 := none
  offset : Option UInt64 := none
  lock : Option RowLock := none
  rows : List Row := []
  assignments : List Assignment := []
  returning : List Field := []
  onConflict : Option OnConflict := none

end

structure CompoundPart where
  op : SetOperation
  query : Query

/-- A chain of set operations. The operands are plain selections; order and pagination belong
    to the whole. -/
structure CompoundQuery where
  base : Query
  parts : List CompoundPart := []
  orderBy : List OrderBy := []
  limit : Option UInt64 := none
  offset : Option UInt64 := none

inductive Statement where
  | query (query : Query)
  | compound (compound : CompoundQuery)

/-- The conditions of a join agree with its kind. -/
def Join.isWellFormed (join : Join) : Bool := join.kind.requiresCondition == join.on.isSome

def Expr.isAggregate : Expr → Bool
  | .aggregate _ => true
  | _ => false

def CompoundQuery.operands (compound : CompoundQuery) : List Query :=
  compound.base :: compound.parts.map (·.query)

end TypedSql
