import TypedSql.Proofs.Tree.Part

namespace TypedSql

section Lists

theorem conditionOccurrences_eq (items : List Condition) :
    conditionOccurrences items = items.flatMap Condition.occurrences := by
  induction items with
  | nil => rfl
  | cons x rest ih => rw [conditionOccurrences, ih, List.flatMap_cons]

theorem whenOccurrences_eq (whens : List WhenClause) :
    whenOccurrences whens = whens.flatMap fun w => w.condition.occurrences := by
  induction whens with
  | nil => rfl
  | cons w rest ih => obtain ⟨x, result⟩ := w; rw [whenOccurrences, ih, List.flatMap_cons]

theorem orderOccurrences_eq (items : List OrderBy) :
    orderOccurrences items = items.flatMap fun o => o.expr.occurrences := by
  induction items with
  | nil => rfl
  | cons o rest ih => obtain ⟨e, direction, nulls⟩ := o; rw [orderOccurrences, ih, List.flatMap_cons]

theorem optionalOccurrences_eq (x : Option Condition) :
    optionalOccurrences x = x.toList.flatMap Condition.occurrences := by
  cases x <;> simp [optionalOccurrences]

def FieldExpr.occurrences (f : FieldExpr) : List Occurrence :=
  f.expr.occurrences ++ f.alias?.elim [] Alias.occurrences

theorem fieldExprOccurrences_eq (fields : List FieldExpr) :
    fieldExprOccurrences fields = fields.flatMap FieldExpr.occurrences := by
  induction fields with
  | nil => rfl
  | cons f rest ih =>
    obtain ⟨e, output⟩ := f
    rw [fieldExprOccurrences, ih, List.flatMap_cons, FieldExpr.occurrences]

def Join.occurrences (j : Join) : List Occurrence :=
  j.table.occurrences ++ optionalOccurrences j.on

theorem joinOccurrences_eq (joins : List Join) :
    joinOccurrences joins = joins.flatMap Join.occurrences := by
  induction joins with
  | nil => rfl
  | cons j rest ih =>
    obtain ⟨kind, table, on⟩ := j
    rw [joinOccurrences, ih, List.flatMap_cons, Join.occurrences]

def AssignValue.occurrences : AssignValue → List Occurrence
  | .param _ => []
  | .expr e => e.occurrences

def Assignment.occurrences (a : Assignment) : List Occurrence :=
  a.field.occurrences ++ a.value.occurrences

theorem assignmentOccurrences_eq (assignments : List Assignment) :
    assignmentOccurrences assignments = assignments.flatMap Assignment.occurrences := by
  induction assignments with
  | nil => rfl
  | cons a rest ih =>
    obtain ⟨target, value⟩ := a
    cases value <;>
      simp [assignmentOccurrences, ih, Assignment.occurrences, AssignValue.occurrences]

theorem Query.occurrences_eq (q : Query) :
    q.occurrences = q.table.occurrences ++ q.distinctOn.flatMap Field.occurrences ++
      q.fields.flatMap FieldExpr.occurrences ++ q.joins.flatMap Join.occurrences ++
      q.filter.toList.flatMap Condition.occurrences ++ q.groupBy.flatMap Field.occurrences ++
      q.having.toList.flatMap Condition.occurrences ++
      q.orderBy.flatMap (fun o => o.expr.occurrences) ++ q.rows.flatMap Row.occurrences ++
      q.assignments.flatMap Assignment.occurrences ++ q.returning.flatMap Field.occurrences ++
      q.onConflict.elim [] OnConflict.occurrences := by
  cases q
  rw [Query.occurrences, fieldExprOccurrences_eq, joinOccurrences_eq, optionalOccurrences_eq,
    optionalOccurrences_eq, orderOccurrences_eq, assignmentOccurrences_eq]

end Lists

namespace Part

def occurrences : Part → List Occurrence
  | .statement s => s.occurrences
  | .compound q => q.occurrences
  | .query q => q.occurrences
  | .projected f => f.occurrences
  | .join j => j.occurrences
  | .assignment a => a.occurrences
  | .ordered o => o.expr.occurrences
  | .expr e => e.occurrences
  | .whenClause w => w.condition.occurrences
  | .operand o => o.occurrences
  | .condition x => x.occurrences
  | .row r => r.occurrences
  | .conflict o => o.occurrences
  | .table t => t.occurrences
  | .field f => f.occurrences
  | .name kind n => [(kind, n)]

theorem occurrences_field (f : Field) : f.occurrences = f.parts.flatMap occurrences := by
  obtain ⟨name, qualifier, path⟩ := f
  have segments : ∀ path : JsonPath, path.occurrences =
      (path.segments.filterMap PathSegment.part?).flatMap occurrences := by
    rintro ⟨segments, asText⟩
    simp only [JsonPath.occurrences]
    induction segments with
    | nil => rfl
    | cons segment rest ih =>
      cases segment <;>
        simp [PathSegment.part?, PathSegment.occurrences, ih, occurrences, List.filterMap_cons]
  rcases qualifier with _ | table | letter <;> cases path <;>
    simp [Field.occurrences, Field.parts, Qualifier.occurrences, occurrences, segments]

theorem occurrences_toList {α : Type} (x : Option α) (part : α → Part) :
    (x.toList.map part).flatMap occurrences = x.elim [] fun a => (part a).occurrences := by
  cases x <;> simp

theorem occurrences_expr (e : Expr) : e.occurrences = e.parts.flatMap occurrences := by
  cases e with
  | aggregate call =>
    obtain ⟨kind, f, filter⟩ := call
    rw [Expr.parts, List.flatMap_append, occurrences_toList, Expr.occurrences,
      optionalOccurrences_eq]
    cases filter <;> simp [occurrences]
  | case cases =>
    obtain ⟨whens, otherwise⟩ := cases
    simp only [Expr.occurrences, Expr.parts, whenOccurrences_eq, List.flatMap_map, occurrences]
  | window w =>
    obtain ⟨function, f, bucket, offset, fallback, ⟨partitionBy, orderBy, frame⟩⟩ := w
    rw [Expr.parts, List.flatMap_append, List.flatMap_append, occurrences_toList,
      Expr.occurrences, orderOccurrences_eq, List.flatMap_map, List.flatMap_map]
    rfl
  | coalesce operands => simp [Expr.occurrences, Expr.parts, List.flatMap_map, occurrences]
  | _ => simp [Expr.occurrences, Expr.parts, occurrences]

theorem occurrences_condition (x : Condition) : x.occurrences = x.parts.flatMap occurrences := by
  cases x with
  | group op items =>
    simp [Condition.occurrences, Condition.parts, conditionOccurrences_eq, List.flatMap_map,
      occurrences]
  | subquery f op q => cases f <;> simp [Condition.occurrences, Condition.parts, occurrences]
  | aggregate kind f op p => cases f <;> simp [Condition.occurrences, Condition.parts, occurrences]
  | _ => simp [Condition.occurrences, Condition.parts, occurrences]

theorem occurrences_eq {p : Part} (composed : ∀ kind n, p ≠ .name kind n) :
    p.occurrences = p.parts.flatMap occurrences := by
  cases p with
  | name kind n => exact absurd rfl (composed kind n)
  | field f => exact occurrences_field f
  | expr e => exact occurrences_expr e
  | condition x => exact occurrences_condition x
  | statement s => cases s <;> simp [parts, occurrences, Statement.occurrences]
  | compound q =>
    simp only [occurrences, parts, CompoundQuery.occurrences, CompoundQuery.operands,
      orderOccurrences_eq, List.cons_append, List.flatMap_cons, List.flatMap_append,
      List.flatMap_map, List.append_assoc]
  | query q =>
    simp only [occurrences, Query.occurrences_eq, parts, Query.parts, List.cons_append,
      List.flatMap_cons, List.flatMap_append, List.flatMap_map, List.append_assoc]
    cases q.onConflict <;> simp
  | projected f =>
    cases h : f.alias? <;> simp [parts, occurrences, FieldExpr.occurrences, h, Alias.occurrences]
  | join j => cases h : j.on <;> simp [parts, occurrences, Join.occurrences, optionalOccurrences, h]
  | assignment a =>
    obtain ⟨target, value⟩ := a
    cases value <;> simp [parts, occurrences, Assignment.occurrences, AssignValue.occurrences]
  | operand o => cases o <;> simp [parts, Operand.parts, occurrences, Operand.occurrences]
  | conflict o =>
    obtain ⟨target, action⟩ := o
    cases action <;>
      simp [parts, occurrences, OnConflict.occurrences, ConflictAction.occurrences,
        List.flatMap_map, ← List.map_eq_flatMap]
  | row r => simp [parts, occurrences, Row.occurrences, List.flatMap_map, ← List.map_eq_flatMap]
  | _ => simp [parts, occurrences, Table.occurrences]

/-- The names of a constituent from its constituents, in the order of the document, down to the
    single names. -/
inductive Lists : Part → List Occurrence → Prop where
  | name (kind : NameKind) (n : String) : Lists (.name kind n) [(kind, n)]
  | node {p : Part} {below : List (Part × List Occurrence)}
      (composed : ∀ kind n, p ≠ .name kind n) (listed : p.parts = below.map Prod.fst)
      (each : ∀ b ∈ below, Lists b.1 b.2) : Lists p (below.flatMap Prod.snd)

theorem lists_occurrences : ∀ p : Part, p.Lists p.occurrences := by
  refine Part.induction fun p below => ?_
  by_cases leaf : ∃ kind n, p = .name kind n
  · obtain ⟨kind, n, rfl⟩ := leaf
    exact .name kind n
  · simp only [not_exists] at leaf
    let pairs := p.parts.map fun b => (b, b.occurrences)
    have listed : p.parts = pairs.map Prod.fst := by simp [pairs, Function.comp_def]
    have each : ∀ b ∈ pairs, b.1.Lists b.2 := by simpa [pairs] using below
    have node := Lists.node leaf listed each
    rw [occurrences_eq leaf]
    simpa [pairs, List.flatMap_map] using node

end Part
end TypedSql
