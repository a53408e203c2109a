import TypedSql.Proofs.NameMap
import TypedSql.Proofs.Tree.Names

namespace TypedSql

/-- New names for old ones, whatever texts they are. Parameters and the keys of JSON paths keep
    theirs. -/
structure Renaming where
  table : String → String
  column : String → String
  output : String → String

namespace Renaming
variable (ρ : Renaming)

def apply : NameKind → String → String
  | .table => ρ.table
  | .field => ρ.column
  | .outputAlias => ρ.output
  | .parameter | .jsonKey => id

/-- The new names of the columns are ordered as the old ones are, by code points and so by the
    bytes of UTF-8. -/
def KeepsOrder (names : List Occurrence) : Prop :=
  ∀ a b, (.field, a) ∈ names → (.field, b) ∈ names → a < b → ρ.column a < ρ.column b

namespace KeepsOrder
variable {ρ} {names fewer : List Occurrence} {a b : String}

theorem mono (keeps : ρ.KeepsOrder names) (among : fewer ⊆ names) : ρ.KeepsOrder fewer :=
  fun a b first second => keeps a b (among first) (among second)

theorem below {p : Part} (keeps : ρ.KeepsOrder p.occurrences) {q : Part} (member : q ∈ p.parts) :
    ρ.KeepsOrder q.occurrences := by
  have composed : ∀ kind n, p ≠ .name kind n := by
    rintro kind n rfl
    cases member
  rw [Part.occurrences_eq composed] at keeps
  exact keeps.mono fun o found => List.mem_flatMap.mpr ⟨q, member, found⟩

theorem inj (keeps : ρ.KeepsOrder names) (first : (.field, a) ∈ names)
    (second : (.field, b) ∈ names) : ρ.column a = ρ.column b ↔ a = b := by
  refine ⟨fun same => Decidable.byContradiction fun apart => ?_, fun same => same ▸ rfl⟩
  by_cases before : a < b
  · exact String.lt_irrefl _ (same ▸ keeps a b first second before)
  · have after := keeps b a second first (NameMap.lt_of_not_lt_of_ne before apart)
    exact String.lt_irrefl _ (same ▸ after)

theorem le (keeps : ρ.KeepsOrder names) (first : (.field, a) ∈ names)
    (second : (.field, b) ∈ names) : ρ.column a ≤ ρ.column b ↔ a ≤ b := by
  rw [← String.not_lt, ← String.not_lt, not_congr]
  refine ⟨fun above => Decidable.byContradiction fun below => ?_, keeps b a second first⟩
  by_cases same : b = a
  · exact String.lt_irrefl _ (same ▸ above)
  · have before := keeps a b first second (NameMap.lt_of_not_lt_of_ne below same)
    exact String.lt_irrefl _ (String.lt_trans above before)

end KeepsOrder
end Renaming

section Leaves
variable (ρ : Renaming)

def Qualifier.rename : Qualifier → Qualifier
  | .table name => .table (ρ.table name)
  | .letter l => .letter l

def Field.rename (f : Field) : Field :=
  { f with name := ρ.column f.name, qualifier := f.qualifier.map (Qualifier.rename ρ) }

def Table.rename (t : Table) : Table := { t with name := ρ.table t.name }

def Alias.rename (a : Alias) : Alias := ⟨ρ.output a.name⟩

def Operand.rename : Operand → Operand
  | .field f => .field (f.rename ρ)
  | .param p => .param p

def MathCall.rename (call : MathCall) : MathCall := { call with field := call.field.rename ρ }

/-- Of entries that come under one name the last one stays. -/
def NameMap.rename {α : Type} (m : NameMap α) : NameMap α :=
  .ofList (m.entries.map fun e => (ρ.column e.1, e.2))

def ConflictAction.rename : ConflictAction → ConflictAction
  | .doNothing => .doNothing
  | .doUpdate updates => .doUpdate (updates.rename ρ)

def OnConflict.rename (conflict : OnConflict) : OnConflict where
  target := conflict.target.map (Field.rename ρ)
  action := conflict.action.rename ρ

end Leaves

mutual

def Expr.rename (ρ : Renaming) : Expr → Expr
  | .field f => .field (f.rename ρ)
  | .aggregate ⟨kind, f, filter⟩ =>
    .aggregate ⟨kind, f.map (Field.rename ρ), renameOptional ρ filter⟩
  | .case ⟨whens, otherwise⟩ => .case ⟨renameWhens ρ whens, otherwise⟩
  | .coalesce operands => .coalesce (operands.map (Operand.rename ρ))
  | .nullIf left right => .nullIf (left.rename ρ) (right.rename ρ)
  | .math call => .math (call.rename ρ)
  | .cast f type => .cast (f.rename ρ) type
  | .window ⟨function, f, bucket, offset, fallback, ⟨partitionBy, orderBy, frame⟩⟩ =>
    .window ⟨function, f.map (Field.rename ρ), bucket, offset, fallback,
      ⟨partitionBy.map (Field.rename ρ), renameOrderBy ρ orderBy, frame⟩⟩
  | .binary f op p => .binary (f.rename ρ) op p
termination_by structural e => e

def Condition.rename (ρ : Renaming) : Condition → Condition
  | .simple f op p => .simple (f.rename ρ) op p
  | .group op items => .group op (renameConditions ρ items)
  | .fieldComparison left op right => .fieldComparison (left.rename ρ) op (right.rename ρ)
  | .subquery f op query => .subquery (f.map (Field.rename ρ)) op (query.rename ρ)
  | .between f low high negated => .between (f.rename ρ) low high negated
  | .aggregate kind f op p => .aggregate kind (f.map (Field.rename ρ)) op p
  | .expression e op p => .expression (e.rename ρ) op p
termination_by structural condition => condition

def Query.rename (ρ : Renaming) : Query → Query
  | ⟨operation, table, distinct, distinctOn, fields, joins, filter, groupBy, having, orderBy,
      limit, offset, lock, rows, assignments, returning, onConflict⟩ =>
    { operation, table := table.rename ρ, distinct
      distinctOn := distinctOn.map (Field.rename ρ), fields := renameFieldExprs ρ fields
      joins := renameJoins ρ joins, filter := renameOptional ρ filter
      groupBy := groupBy.map (Field.rename ρ), having := renameOptional ρ having
      orderBy := renameOrderBy ρ orderBy, limit, offset, lock
      rows := rows.map (NameMap.rename ρ), assignments := renameAssignments ρ assignments
      returning := returning.map (Field.rename ρ)
      onConflict := onConflict.map (OnConflict.rename ρ) }
termination_by structural query => query

def renameOptional (ρ : Renaming) : Option Condition → Option Condition
  | none => none
  | some condition => some (condition.rename ρ)
termination_by structural condition => condition

def renameConditions (ρ : Renaming) : List Condition → List Condition
  | [] => []
  | condition :: rest => condition.rename ρ :: renameConditions ρ rest
termination_by structural conditions => conditions

def renameWhens (ρ : Renaming) : List WhenClause → List WhenClause
  | [] => []
  | ⟨condition, result⟩ :: rest => ⟨condition.rename ρ, result⟩ :: renameWhens ρ rest
termination_by structural whens => whens

def renameOrderBy (ρ : Renaming) : List OrderBy → List OrderBy
  | [] => []
  | ⟨expr, direction, nulls⟩ :: rest =>
    ⟨expr.rename ρ, direction, nulls⟩ :: renameOrderBy ρ rest
termination_by structural items => items

def renameFieldExprs (ρ : Renaming) : List FieldExpr → List FieldExpr
  | [] => []
  | ⟨expr, alias?⟩ :: rest =>
    ⟨expr.rename ρ, alias?.map (Alias.rename ρ)⟩ :: renameFieldExprs ρ rest
termination_by structural fields => fields

def renameJoins (ρ : Renaming) : List Join → List Join
  | [] => []
  | ⟨kind, table, on⟩ :: rest => ⟨kind, table.rename ρ, renameOptional ρ on⟩ :: renameJoins ρ rest
termination_by structural joins => joins

def renameAssignments (ρ : Renaming) : List Assignment → List Assignment
  | [] => []
  | ⟨target, .param p⟩ :: rest => ⟨target.rename ρ, .param p⟩ :: renameAssignments ρ rest
  | ⟨target, .expr e⟩ :: rest => ⟨target.rename ρ, .expr (e.rename ρ)⟩ :: renameAssignments ρ rest
termination_by structural assignments => assignments

end

section Members
variable (ρ : Renaming)

def WhenClause.rename (w : WhenClause) : WhenClause := ⟨w.condition.rename ρ, w.result⟩

def OrderBy.rename (o : OrderBy) : OrderBy := { o with expr := o.expr.rename ρ }

def FieldExpr.rename (f : FieldExpr) : FieldExpr :=
  ⟨f.expr.rename ρ, f.alias?.map (Alias.rename ρ)⟩

def Join.rename (j : Join) : Join :=
  ⟨j.kind, j.table.rename ρ, j.on.map (Condition.rename ρ)⟩

def AssignValue.rename : AssignValue → AssignValue
  | .param p => .param p
  | .expr e => .expr (e.rename ρ)

def Assignment.rename (a : Assignment) : Assignment := ⟨a.field.rename ρ, a.value.rename ρ⟩

def CompoundPart.rename (part : CompoundPart) : CompoundPart :=
  { part with query := part.query.rename ρ }

def CompoundQuery.rename (q : CompoundQuery) : CompoundQuery where
  base := q.base.rename ρ
  parts := q.parts.map (CompoundPart.rename ρ)
  orderBy := q.orderBy.map (OrderBy.rename ρ)
  limit := q.limit
  offset := q.offset

def Statement.rename : Statement → Statement
  | .query q => .query (q.rename ρ)
  | .compound q => .compound (q.rename ρ)

@[simp] theorem renameOptional_eq (x : Option Condition) :
    renameOptional ρ x = x.map (Condition.rename ρ) := by
  cases x <;> rfl

@[simp] theorem renameConditions_eq (items : List Condition) :
    renameConditions ρ items = items.map (Condition.rename ρ) := by
  induction items with
  | nil => rfl
  | cons x rest ih => rw [renameConditions, ih, List.map_cons]

@[simp] theorem renameWhens_eq (whens : List WhenClause) :
    renameWhens ρ whens = whens.map (WhenClause.rename ρ) := by
  induction whens with
  | nil => rfl
  | cons w rest ih => obtain ⟨x, result⟩ := w; rw [renameWhens, ih]; rfl

@[simp] theorem renameOrderBy_eq (items : List OrderBy) :
    renameOrderBy ρ items = items.map (OrderBy.rename ρ) := by
  induction items with
  | nil => rfl
  | cons o rest ih => obtain ⟨e, direction, nulls⟩ := o; rw [renameOrderBy, ih]; rfl

@[simp] theorem renameFieldExprs_eq (fields : List FieldExpr) :
    renameFieldExprs ρ fields = fields.map (FieldExpr.rename ρ) := by
  induction fields with
  | nil => rfl
  | cons f rest ih => obtain ⟨e, output⟩ := f; rw [renameFieldExprs, ih]; rfl

@[simp] theorem renameJoins_eq (joins : List Join) :
    renameJoins ρ joins = joins.map (Join.rename ρ) := by
  induction joins with
  | nil => rfl
  | cons j rest ih =>
    obtain ⟨kind, table, on⟩ := j
    rw [renameJoins, ih, renameOptional_eq]
    rfl

@[simp] theorem renameAssignments_eq (assignments : List Assignment) :
    renameAssignments ρ assignments = assignments.map (Assignment.rename ρ) := by
  induction assignments with
  | nil => rfl
  | cons a rest ih => obtain ⟨target, value⟩ := a; cases value <;> (rw [renameAssignments, ih]; rfl)

theorem Query.rename_eq (q : Query) :
    q.rename ρ =
      { q with
        table := q.table.rename ρ
        distinctOn := q.distinctOn.map (Field.rename ρ)
        fields := q.fields.map (FieldExpr.rename ρ)
        joins := q.joins.map (Join.rename ρ)
        filter := q.filter.map (Condition.rename ρ)
        groupBy := q.groupBy.map (Field.rename ρ)
        having := q.having.map (Condition.rename ρ)
        orderBy := q.orderBy.map (OrderBy.rename ρ)
        rows := q.rows.map (NameMap.rename ρ)
        assignments := q.assignments.map (Assignment.rename ρ)
        returning := q.returning.map (Field.rename ρ)
        onConflict := q.onConflict.map (OnConflict.rename ρ) } := by
  cases q
  simp [Query.rename]

end Members

section Projections
variable (ρ : Renaming) (q : Query)

@[simp] theorem Query.operation_rename : (q.rename ρ).operation = q.operation := by
  rw [Query.rename_eq]

@[simp] theorem Query.table_rename : (q.rename ρ).table = q.table.rename ρ := by
  rw [Query.rename_eq]

@[simp] theorem Query.distinct_rename : (q.rename ρ).distinct = q.distinct := by
  rw [Query.rename_eq]

@[simp] theorem Query.distinctOn_rename :
    (q.rename ρ).distinctOn = q.distinctOn.map (Field.rename ρ) := by
  rw [Query.rename_eq]

@[simp] theorem Query.fields_rename : (q.rename ρ).fields = q.fields.map (FieldExpr.rename ρ) := by
  rw [Query.rename_eq]

@[simp] theorem Query.joins_rename : (q.rename ρ).joins = q.joins.map (Join.rename ρ) := by
  rw [Query.rename_eq]

@[simp] theorem Query.filter_rename : (q.rename ρ).filter = q.filter.map (Condition.rename ρ) := by
  rw [Query.rename_eq]

@[simp] theorem Query.groupBy_rename : (q.rename ρ).groupBy = q.groupBy.map (Field.rename ρ) := by
  rw [Query.rename_eq]

@[simp] theorem Query.having_rename : (q.rename ρ).having = q.having.map (Condition.rename ρ) := by
  rw [Query.rename_eq]

@[simp] theorem Query.orderBy_rename : (q.rename ρ).orderBy = q.orderBy.map (OrderBy.rename ρ) := by
  rw [Query.rename_eq]

@[simp] theorem Query.limit_rename : (q.rename ρ).limit = q.limit := by
  rw [Query.rename_eq]

@[simp] theorem Query.offset_rename : (q.rename ρ).offset = q.offset := by
  rw [Query.rename_eq]

@[simp] theorem Query.lock_rename : (q.rename ρ).lock = q.lock := by
  rw [Query.rename_eq]

@[simp] theorem Query.rows_rename : (q.rename ρ).rows = q.rows.map (NameMap.rename ρ) := by
  rw [Query.rename_eq]

@[simp] theorem Query.assignments_rename :
    (q.rename ρ).assignments = q.assignments.map (Assignment.rename ρ) := by
  rw [Query.rename_eq]

@[simp] theorem Query.returning_rename :
    (q.rename ρ).returning = q.returning.map (Field.rename ρ) := by
  rw [Query.rename_eq]

@[simp] theorem Query.onConflict_rename :
    (q.rename ρ).onConflict = q.onConflict.map (OnConflict.rename ρ) := by
  rw [Query.rename_eq]

end Projections
end TypedSql
