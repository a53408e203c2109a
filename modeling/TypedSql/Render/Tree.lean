import TypedSql.Render.Insert
import TypedSql.Render.Select
import TypedSql.Render.Update

namespace TypedSql

/-- A query by its operation, given its rendered parts. -/
def renderOperation (c : Context) (q : Query) (parts : QueryParts) : Render Sql :=
  match q.operation with
  | .select => renderSelect c q parts
  | .count => renderCount q parts
  | .insert => renderInsert c q
  | .update => renderUpdate c q parts
  | .delete => renderDelete c q parts

mutual

def Expr.render : Expr → Context → Render Sql
  | .field f, c => .ofExcept (f.render c.dialect)
  | .aggregate ⟨kind, f, filter⟩, c =>
    renderAggregate c kind f (renderOptional filter c .filter)
  | .case ⟨whens, otherwise⟩, c => renderCase c (renderWhens whens c) otherwise
  | .coalesce operands, c => renderCoalesce c operands
  | .nullIf left right, c => renderNullIf c left right
  | .math call, c => call.render c
  | .cast f type, c => .ofExcept (renderCast c f type)
  | .window ⟨function, f, bucket, offset, fallback, ⟨partitionBy, orderBy, frame⟩⟩, c =>
    WindowCall.render ⟨function, f, bucket, offset, fallback, ⟨partitionBy, orderBy, frame⟩⟩ c
      (renderOrder orderBy c)
  | .binary f op param, c => renderBinary c f op param
termination_by structural e => e

def Condition.render : Condition → Context → Scope → Bool → Render Sql
  | .simple f op param, c, _, _ => renderSimple c f op param
  | .group _ [], _, _, _ => .fail .emptyConditionGroup
  | .group _ [only], c, scope, nested => only.render c scope nested
  | .group op items, c, scope, nested => renderGroup op nested (renderItems items c scope)
  | .fieldComparison left op right, c, _, _ => .ofExcept (renderFieldComparison c left op right)
  | .subquery f op query, c, _, _ =>
    renderSubquery c f op query.operation fun child => query.render child
  | .between f low high negated, c, _, _ => renderBetween c f low high negated
  | .aggregate kind f op param, c, scope, _ => renderAggregateCondition c scope kind f op param
  | .expression e op param, c, scope, _ =>
    renderExpressionCondition c scope e.isAggregate (e.render c) op param
termination_by structural condition => condition

def Query.render : Query → Context → Render Sql
  | ⟨operation, table, distinct, distinctOn, fields, joins, filter, groupBy, having, orderBy,
      limit, offset, lock, rows, assignments, returning, onConflict⟩, c =>
    renderOperation c
      ⟨operation, table, distinct, distinctOn, fields, joins, filter, groupBy, having, orderBy,
        limit, offset, lock, rows, assignments, returning, onConflict⟩
      { fields := renderFieldExprs fields c
        joins := renderJoined joins c
        filter := renderOptional filter c .whereClause
        having := renderOptional having c .having
        orderBy := renderOrder orderBy c
        assignments := renderSets assignments c }
termination_by structural query => query

def renderOptional : Option Condition → Context → Scope → Option (Render Sql)
  | none, _, _ => none
  | some condition, c, scope => some (condition.render c scope false)
termination_by structural condition => condition

def renderItems : List Condition → Context → Scope → List (Render Sql)
  | [], _, _ => []
  | item :: rest, c, scope => item.render c scope true :: renderItems rest c scope
termination_by structural items => items

def renderWhens : List WhenClause → Context → List (Render Sql)
  | [], _ => []
  | ⟨condition, result⟩ :: rest, c =>
    renderWhen c (condition.render c .caseWhen false) result :: renderWhens rest c
termination_by structural whens => whens

def renderOrder : List OrderBy → Context → List (Render Sql)
  | [], _ => []
  | ⟨expr, direction, nulls⟩ :: rest, c =>
    renderOrderItem c (expr.render c) direction nulls :: renderOrder rest c
termination_by structural items => items

def renderFieldExprs : List FieldExpr → Context → List (Render Sql)
  | [], _ => []
  | ⟨expr, alias?⟩ :: rest, c => renderFieldExpr (expr.render c) alias? :: renderFieldExprs rest c
termination_by structural fields => fields

def renderJoined : List Join → Context → List (Render Sql)
  | [], _ => []
  | ⟨kind, table, on⟩ :: rest, c =>
    renderJoin c ⟨kind, table, on⟩ (renderOptional on c .joinOn) :: renderJoined rest c
termination_by structural joins => joins

def renderSets : List Assignment → Context → List (Field × Render Sql)
  | [], _ => []
  | ⟨target, .param param⟩ :: rest, c => (target, c.param param) :: renderSets rest c
  | ⟨target, .expr expr⟩ :: rest, c =>
    (target, renderAssigned c (.expr expr) (expr.render c)) :: renderSets rest c
termination_by structural assignments => assignments

end

end TypedSql
