import TypedSql.Tree.Basic

namespace TypedSql

/-- The gates for names that a caller chooses and that are written without quotes. -/
inductive Gate where
  | parameter | jsonKey | outputAlias | tableAlias
  deriving DecidableEq

def Gate.Admits : Gate → String → Prop
  | .parameter, name => checkName .parameter name = .ok ()
  | .jsonKey, name => checkName .jsonKey name = .ok ()
  | .outputAlias, name => checkWord .outputAlias name = .ok ()
  | .tableAlias, name => ∃ c, name.toList = [c] ∧ 'a' ≤ c ∧ c ≤ 'z'

abbrev GatedName := Gate × String

def Param.gated (p : Param) : List GatedName := [(.parameter, p.name)]

def JsonKey.gated (k : JsonKey) : List GatedName := [(.jsonKey, k.name)]

def Alias.gated (a : Alias) : List GatedName := [(.outputAlias, a.name)]

def TableAlias.gated (a : TableAlias) : List GatedName := [(.tableAlias, a.display)]

def Table.gated (t : Table) : List GatedName := t.alias?.elim [] TableAlias.gated

def Qualifier.gated : Qualifier → List GatedName
  | .table _ => []
  | .letter a => a.gated

def PathSegment.gated : PathSegment → List GatedName
  | .key k => k.gated
  | .index _ => []

def JsonPath.gated (p : JsonPath) : List GatedName := p.segments.flatMap PathSegment.gated

def Field.gated (f : Field) : List GatedName :=
  f.qualifier.elim [] Qualifier.gated ++ f.path.elim [] JsonPath.gated

def Operand.gated : Operand → List GatedName
  | .field f => f.gated
  | .param p => p.gated

def MathCall.gated (m : MathCall) : List GatedName :=
  m.field.gated ++ m.argument.elim [] Param.gated

def Row.gated (r : Row) : List GatedName := r.values.flatMap Param.gated

def ConflictValue.gated : ConflictValue → List GatedName
  | .param p => p.gated
  | .excluded => []

def ConflictAction.gated : ConflictAction → List GatedName
  | .doNothing => []
  | .doUpdate updates => updates.values.flatMap ConflictValue.gated

def OnConflict.gated (o : OnConflict) : List GatedName :=
  o.target.flatMap Field.gated ++ o.action.gated

mutual

def Expr.gated : Expr → List GatedName
  | .field f => f.gated
  | .aggregate call => call.gated
  | .case cases => cases.gated
  | .coalesce operands => operands.flatMap Operand.gated
  | .nullIf left right => left.gated ++ right.gated
  | .math call => call.gated
  | .cast f _ => f.gated
  | .window call => call.gated
  | .binary f _ p => f.gated ++ p.gated
termination_by structural e => e

def AggregateCall.gated : AggregateCall → List GatedName
  | ⟨_, f, filter⟩ => f.elim [] Field.gated ++ optionalGated filter
termination_by structural call => call

def WhenClause.gated : WhenClause → List GatedName
  | ⟨condition, result⟩ => condition.gated ++ result.gated
termination_by structural w => w

def CaseExpr.gated : CaseExpr → List GatedName
  | ⟨whens, otherwise⟩ => whensGated whens ++ otherwise.elim [] Param.gated
termination_by structural cases => cases

def OrderBy.gated : OrderBy → List GatedName
  | ⟨expr, _, _⟩ => expr.gated
termination_by structural item => item

def WindowSpec.gated : WindowSpec → List GatedName
  | ⟨partitionBy, orderBy, _⟩ => partitionBy.flatMap Field.gated ++ orderGated orderBy
termination_by structural spec => spec

def WindowCall.gated : WindowCall → List GatedName
  | ⟨_, f, bucket, offset, fallback, window⟩ =>
    f.elim [] Field.gated ++ bucket.elim [] Param.gated ++ offset.elim [] Param.gated
      ++ fallback.elim [] Param.gated ++ window.gated
termination_by structural call => call

def Condition.gated : Condition → List GatedName
  | .simple f _ p => f.gated ++ p.elim [] Param.gated
  | .group _ items => conditionsGated items
  | .fieldComparison left _ right => left.gated ++ right.gated
  | .subquery f _ query => f.elim [] Field.gated ++ query.gated
  | .between f low high _ => f.gated ++ low.gated ++ high.gated
  | .aggregate _ f _ p => f.elim [] Field.gated ++ p.gated
  | .expression e _ p => e.gated ++ p.gated
termination_by structural condition => condition

def FieldExpr.gated : FieldExpr → List GatedName
  | ⟨expr, alias?⟩ => expr.gated ++ alias?.elim [] Alias.gated
termination_by structural f => f

def Join.gated : Join → List GatedName
  | ⟨_, table, on⟩ => table.gated ++ optionalGated on
termination_by structural j => j

def AssignValue.gated : AssignValue → List GatedName
  | .param p => p.gated
  | .expr e => e.gated
termination_by structural value => value

def Assignment.gated : Assignment → List GatedName
  | ⟨target, value⟩ => target.gated ++ value.gated
termination_by structural a => a

def Query.gated : Query → List GatedName
  | { table, distinctOn, fields, joins, filter, groupBy, having, orderBy, rows, assignments,
      returning, onConflict, .. } =>
    table.gated ++ distinctOn.flatMap Field.gated ++ projectedGated fields ++ joinsGated joins
      ++ optionalGated filter ++ groupBy.flatMap Field.gated ++ optionalGated having
      ++ orderGated orderBy ++ rows.flatMap Row.gated ++ assignmentsGated assignments
      ++ returning.flatMap Field.gated ++ onConflict.elim [] OnConflict.gated
termination_by structural query => query

def optionalGated : Option Condition → List GatedName
  | none => []
  | some condition => condition.gated
termination_by structural condition => condition

def conditionsGated : List Condition → List GatedName
  | [] => []
  | condition :: rest => condition.gated ++ conditionsGated rest
termination_by structural conditions => conditions

def whensGated : List WhenClause → List GatedName
  | [] => []
  | w :: rest => w.gated ++ whensGated rest
termination_by structural whens => whens

def orderGated : List OrderBy → List GatedName
  | [] => []
  | item :: rest => item.gated ++ orderGated rest
termination_by structural items => items

def projectedGated : List FieldExpr → List GatedName
  | [] => []
  | f :: rest => f.gated ++ projectedGated rest
termination_by structural fields => fields

def joinsGated : List Join → List GatedName
  | [] => []
  | j :: rest => j.gated ++ joinsGated rest
termination_by structural joins => joins

def assignmentsGated : List Assignment → List GatedName
  | [] => []
  | a :: rest => a.gated ++ assignmentsGated rest
termination_by structural assignments => assignments

end

def CompoundPart.gated (p : CompoundPart) : List GatedName := p.query.gated

def CompoundQuery.gated (q : CompoundQuery) : List GatedName :=
  q.base.gated ++ q.parts.flatMap CompoundPart.gated ++ q.orderBy.flatMap OrderBy.gated

def Statement.gated : Statement → List GatedName
  | .query q => q.gated
  | .compound q => q.gated

theorem eq_flatMap {α β : Type} {f : List α → List β} {g : α → List β} (nil : f [] = [])
    (cons : ∀ a rest, f (a :: rest) = g a ++ f rest) (as : List α) : f as = as.flatMap g := by
  induction as with
  | nil => exact nil
  | cons a rest ih => rw [cons, ih, List.flatMap_cons]

section Lists

theorem conditionsGated_eq (items : List Condition) :
    conditionsGated items = items.flatMap Condition.gated := eq_flatMap rfl (fun _ _ => rfl) items

theorem whensGated_eq (whens : List WhenClause) :
    whensGated whens = whens.flatMap WhenClause.gated := eq_flatMap rfl (fun _ _ => rfl) whens

theorem orderGated_eq (items : List OrderBy) :
    orderGated items = items.flatMap OrderBy.gated := eq_flatMap rfl (fun _ _ => rfl) items

theorem projectedGated_eq (fields : List FieldExpr) :
    projectedGated fields = fields.flatMap FieldExpr.gated := eq_flatMap rfl (fun _ _ => rfl) fields

theorem joinsGated_eq (joins : List Join) :
    joinsGated joins = joins.flatMap Join.gated := eq_flatMap rfl (fun _ _ => rfl) joins

theorem assignmentsGated_eq (assignments : List Assignment) :
    assignmentsGated assignments = assignments.flatMap Assignment.gated :=
  eq_flatMap rfl (fun _ _ => rfl) assignments

theorem optionalGated_eq (x : Option Condition) :
    optionalGated x = x.elim [] Condition.gated := by
  cases x <;> rfl

end Lists

def Among {α : Type} (names : α → List GatedName) (P : GatedName → Prop) (a : α) : Prop :=
  ∀ n ∈ names a, P n

section Among
variable {α : Type} {P : GatedName → Prop} {names : α → List GatedName}

theorem among_flatMap {as : List α} :
    (∀ n ∈ as.flatMap names, P n) ↔ ∀ a ∈ as, Among names P a := by
  simp only [List.mem_flatMap, Among]
  exact ⟨fun all a member n inside => all n ⟨a, member, inside⟩,
    fun all n ⟨a, member, inside⟩ => all a member n inside⟩

theorem among_elim {a : Option α} :
    (∀ n ∈ a.elim [] names, P n) ↔ ∀ x ∈ a, Among names P x := by
  cases a with
  | none => simp
  | some a => simp only [Option.elim, Option.mem_def, Option.some.injEq, forall_eq', Among]

end Among
end TypedSql
