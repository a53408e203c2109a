import Mathlib.Data.List.Basic
import TypedSql.Tree.Occurrence

namespace TypedSql

/-- A constituent of a document, down to the single name. -/
inductive Part where
  | statement (s : Statement)
  | compound (q : CompoundQuery)
  | query (q : Query)
  | projected (f : FieldExpr)
  | join (j : Join)
  | assignment (a : Assignment)
  | ordered (o : OrderBy)
  | expr (e : Expr)
  | whenClause (w : WhenClause)
  | operand (o : Operand)
  | condition (x : Condition)
  | row (r : Row)
  | conflict (o : OnConflict)
  | table (t : Table)
  | field (f : Field)
  | name (kind : NameKind) (name : String)

def PathSegment.part? : PathSegment → Option Part
  | .key k => some (.name .jsonKey k.name)
  | .index _ => none

def Field.parts (f : Field) : List Part :=
  .name .field f.name ::
    (match f.qualifier with
      | some (.table table) => [.name .table table]
      | _ => []) ++
    (match f.path with
      | some path => path.segments.filterMap PathSegment.part?
      | none => [])

def Operand.parts : Operand → List Part
  | .field f => [.field f]
  | .param _ => []

def Expr.parts : Expr → List Part
  | .field f => [.field f]
  | .aggregate call => call.field.toList.map .field ++ call.filter.toList.map .condition
  | .case cases => cases.whens.map .whenClause
  | .coalesce operands => operands.map .operand
  | .nullIf left right => [.operand left, .operand right]
  | .math call => [.field call.field]
  | .cast f _ => [.field f]
  | .window w =>
    w.field.toList.map .field ++ w.window.partitionBy.map .field ++ w.window.orderBy.map .ordered
  | .binary f _ _ => [.field f]

def Condition.parts : Condition → List Part
  | .simple f _ _ => [.field f]
  | .group _ items => items.map .condition
  | .fieldComparison left _ right => [.field left, .field right]
  | .subquery f _ q => f.toList.map .field ++ [.query q]
  | .between f _ _ _ => [.field f]
  | .aggregate _ f _ _ => f.toList.map .field
  | .expression e _ _ => [.expr e]

def Query.parts (q : Query) : List Part :=
  .table q.table :: q.distinctOn.map .field ++ q.fields.map .projected ++ q.joins.map .join ++
    q.filter.toList.map .condition ++ q.groupBy.map .field ++ q.having.toList.map .condition ++
    q.orderBy.map .ordered ++ q.rows.map .row ++ q.assignments.map .assignment ++
    q.returning.map .field ++ q.onConflict.toList.map .conflict

namespace Part

/-- The constituents next below, all of them, in the order of the document. -/
def parts : Part → List Part
  | .statement (.query q) => [.query q]
  | .statement (.compound q) => [.compound q]
  | .compound q =>
    .query q.base :: q.parts.map (fun part => .query part.query) ++ q.orderBy.map .ordered
  | .query q => q.parts
  | .projected f => .expr f.expr :: f.alias?.toList.map fun a => .name .outputAlias a.name
  | .join j => .table j.table :: j.on.toList.map .condition
  | .assignment ⟨target, .param _⟩ => [.field target]
  | .assignment ⟨target, .expr e⟩ => [.field target, .expr e]
  | .ordered o => [.expr o.expr]
  | .expr e => e.parts
  | .whenClause w => [.condition w.condition]
  | .operand o => o.parts
  | .condition x => x.parts
  | .row r => r.names.map (.name .field)
  | .conflict ⟨target, .doNothing⟩ => target.map .field
  | .conflict ⟨target, .doUpdate updates⟩ => target.map .field ++ updates.names.map (.name .field)
  | .table t => [.name .table t.name]
  | .field f => f.parts
  | .name _ _ => []

noncomputable def height : Part → Nat
  | .name _ _ => 0
  | .table _ | .field _ | .row _ => 1
  | .operand _ | .conflict _ => 2
  | .expr e => 2 + sizeOf e
  | .condition x => 2 + sizeOf x
  | .projected f => 2 + sizeOf f
  | .ordered o => 2 + sizeOf o
  | .whenClause w => 2 + sizeOf w
  | .join j => 2 + sizeOf j
  | .assignment a => 2 + sizeOf a
  | .query q => 2 + sizeOf q
  | .compound q => 3 + sizeOf q
  | .statement s => 4 + sizeOf s

theorem name_of_mem_field {f : Field} {p : Part} (below : p ∈ f.parts) :
    ∃ kind name, p = .name kind name := by
  simp only [Field.parts, List.cons_append, List.mem_cons, List.mem_append] at below
  rcases below with rfl | below | below
  · exact ⟨_, _, rfl⟩
  · split at below <;> simp at below
    exact ⟨_, _, below⟩
  · split at below
    · obtain ⟨segment, _, found⟩ := List.mem_filterMap.mp below
      cases segment <;> simp [PathSegment.part?] at found
      exact ⟨_, _, found.symm⟩
    · simp at below

theorem height_expr_lt {e : Expr} {p : Part} (below : p ∈ e.parts) :
    p.height < (Part.expr e).height := by
  cases e with
  | aggregate call =>
    obtain ⟨kind, f, filter⟩ := call
    cases f <;> cases filter <;> simp [Expr.parts] at below
    all_goals rcases below with rfl | rfl <;> simp [height] <;> omega
  | case cases =>
    obtain ⟨whens, otherwise⟩ := cases
    simp only [Expr.parts, List.mem_map] at below
    obtain ⟨w, member, rfl⟩ := below
    have := List.sizeOf_lt_of_mem member
    simp [height]
    omega
  | window w =>
    obtain ⟨function, f, bucket, offset, fallback, ⟨partitionBy, orderBy, frame⟩⟩ := w
    simp only [Expr.parts, List.mem_append, List.mem_map] at below
    rcases below with (⟨_, _, rfl⟩ | ⟨_, _, rfl⟩) | ⟨o, member, rfl⟩
    · simp [height]; omega
    · simp [height]; omega
    · have := List.sizeOf_lt_of_mem member
      simp [height]
      omega
  | coalesce operands =>
    simp only [Expr.parts, List.mem_map] at below
    obtain ⟨_, _, rfl⟩ := below
    simp only [height, Expr.coalesce.sizeOf_spec]
    omega
  | nullIf left right =>
    simp only [Expr.parts, List.mem_cons, List.not_mem_nil, or_false] at below
    rcases below with rfl | rfl <;> simp only [height, Expr.nullIf.sizeOf_spec] <;> omega
  | field | math | cast | binary =>
    simp only [Expr.parts, List.mem_singleton] at below
    subst below
    simp only [height]
    omega

theorem height_condition_lt {x : Condition} {p : Part} (below : p ∈ x.parts) :
    p.height < (Part.condition x).height := by
  cases x with
  | group op items =>
    simp only [Condition.parts, List.mem_map] at below
    obtain ⟨item, member, rfl⟩ := below
    have := List.sizeOf_lt_of_mem member
    simp [height]
    omega
  | fieldComparison left op right =>
    simp only [Condition.parts, List.mem_cons, List.not_mem_nil, or_false] at below
    rcases below with rfl | rfl <;> simp [height] <;> omega
  | subquery f op q =>
    simp only [Condition.parts, List.mem_append, List.mem_map, List.mem_singleton] at below
    rcases below with ⟨_, _, rfl⟩ | rfl <;>
      (simp only [height, Condition.subquery.sizeOf_spec]; omega)
  | aggregate kind f op param =>
    simp only [Condition.parts, List.mem_map] at below
    obtain ⟨_, _, rfl⟩ := below
    simp [height]
    omega
  | simple | between | expression =>
    simp only [Condition.parts, List.mem_singleton] at below
    subst below
    simp only [height, Condition.simple.sizeOf_spec, Condition.between.sizeOf_spec,
      Condition.expression.sizeOf_spec]
    omega

theorem height_query_lt {q : Query} {p : Part} (below : p ∈ q.parts) :
    p.height < (Part.query q).height := by
  obtain ⟨operation, table, distinct, distinctOn, fields, joins, filter, groupBy, having, orderBy,
    limit, offset, lock, rows, assignments, returning, onConflict⟩ := q
  simp only [Query.parts, List.cons_append, List.mem_cons, List.mem_append, List.mem_map,
    Option.mem_toList] at below
  rcases below with rfl | below
  · simp [height]; omega
  rcases below with ((((((((((⟨_, _, rfl⟩ | ⟨f, member, rfl⟩) | ⟨j, member, rfl⟩) | ⟨x, rfl, rfl⟩) |
    ⟨_, _, rfl⟩) | ⟨x, rfl, rfl⟩) | ⟨o, member, rfl⟩) | ⟨_, _, rfl⟩) | ⟨a, member, rfl⟩) |
    ⟨_, _, rfl⟩) | ⟨_, _, rfl⟩)
  all_goals try have := List.sizeOf_lt_of_mem member
  all_goals simp only [height, Query.mk.sizeOf_spec, Option.some.sizeOf_spec]
  all_goals omega

theorem height_lt {p below : Part} (member : below ∈ p.parts) : below.height < p.height := by
  cases p with
  | expr => exact height_expr_lt member
  | condition => exact height_condition_lt member
  | query => exact height_query_lt member
  | statement s => cases s <;> simp [parts] at member <;> subst member <;> simp [height] <;> omega
  | compound q =>
    obtain ⟨base, more, orderBy, limit, offset⟩ := q
    simp only [parts, List.cons_append, List.mem_cons, List.mem_append, List.mem_map] at member
    rcases member with rfl | ⟨⟨op, q⟩, member, rfl⟩ | ⟨o, member, rfl⟩
    · simp [height]; omega
    · have := List.sizeOf_lt_of_mem member
      simp at this
      simp [height]
      omega
    · have := List.sizeOf_lt_of_mem member
      simp [height]
      omega
  | projected f =>
    obtain ⟨e, output⟩ := f
    cases output <;> simp [parts] at member <;> rcases member with rfl | rfl <;>
      (simp only [height, FieldExpr.mk.sizeOf_spec]; omega)
  | join j =>
    obtain ⟨kind, table, on⟩ := j
    cases on <;> simp [parts] at member <;> rcases member with rfl | rfl <;> simp [height] <;> omega
  | assignment a =>
    obtain ⟨target, value⟩ := a
    cases value <;> simp [parts] at member <;> rcases member with rfl | rfl <;>
      (simp [height]; omega)
  | ordered o =>
    obtain ⟨e, direction, nulls⟩ := o
    simp only [parts, List.mem_singleton] at member
    subst member
    simp [height]
    omega
  | whenClause w =>
    obtain ⟨x, result⟩ := w
    simp only [parts, List.mem_singleton] at member
    subst member
    simp [height]
    omega
  | operand o =>
    cases o <;> simp [parts, Operand.parts] at member
    subst member
    simp [height]
  | conflict o =>
    obtain ⟨target, action⟩ := o
    cases action <;> simp [parts] at member
    · obtain ⟨_, _, rfl⟩ := member
      simp [height]
    · rcases member with ⟨_, _, rfl⟩ | ⟨_, _, rfl⟩ <;> simp [height]
  | row => obtain ⟨_, _, rfl⟩ := List.mem_map.mp member; simp [height]
  | table => obtain rfl := List.mem_singleton.mp member; simp [height]
  | field f => obtain ⟨_, _, rfl⟩ := name_of_mem_field member; simp [height]
  | name => simp [parts] at member

/-- What passes from the constituents below to the whole holds of every constituent. -/
theorem induction {P : Part → Prop} (step : ∀ p, (∀ below ∈ p.parts, P below) → P p) (p : Part) :
    P p :=
  step p fun below _ => induction step below
termination_by p.height
decreasing_by exact height_lt ‹_›

end Part
end TypedSql
