import TypedSql.Proofs.Render.Hinge

namespace TypedSql

section Constituents
variable {α : Type} {c : Context} {d : Dialect} {short : Prop} {rendered : Render Sql}
variable {f : α → Render Sql} {falls : α → Prop}

theorem renderAggregate_none_hinges {kind : AggregateKind} {field : Option Field}
    {column : Option Sql}
    (columned : aggregateField c.dialect kind field .aggregateField = .ok column) :
    d.Hinges (∃ g ∈ field, (Part.field g).Exceeds d)
      (renderAggregate (c.speaking d) kind field none).result := by
  simp only [renderAggregate, Render.result_bind]
  exact (aggregateField_hinges columned).arrange

theorem renderAggregate_some_hinges {kind : AggregateKind} {field : Option Field}
    {column : Option Sql}
    (columned : aggregateField c.dialect kind field .aggregateField = .ok column)
    (filters : d.Hinges short rendered.result) :
    d.Hinges ((∃ g ∈ field, (Part.field g).Exceeds d) ∨ short)
      (renderAggregate (c.speaking d) kind field (some rendered)).result := by
  simp only [renderAggregate, Render.result_bind]
  refine ((aggregateField_hinges columned).bind fun _ =>
    filters.bind (q := False) fun _ => ?_).congr (by simp)
  split <;> exact .ok _

theorem renderCase_hinges {whens : List α} (branched : whens ≠ []) (named : c.style = .named)
    (branches : ∀ w ∈ whens, d.Hinges (falls w) (f w).result) (otherwise : Option Param) :
    d.Hinges (∃ w ∈ whens, falls w)
      (renderCase (c.speaking d) (whens.map f) otherwise).result := by
  have some : whens.isEmpty = false := by simpa using branched
  simp only [renderCase, List.isEmpty_map, some, Bool.false_eq_true, ↓reduceIte,
    Render.result_bind]
  cases otherwise with
  | none => exact (Dialect.Hinges.all branches).arrange
  | some p =>
    simp only [Render.result_bind]
    exact ((Dialect.Hinges.all branches).bind fun _ =>
      (Context.param_hinges named p).arrange).congr (by simp)

theorem renderCoalesce_hinges {operands : List Operand} (several : 2 ≤ operands.length)
    (operand : ∀ o ∈ operands, d.Hinges ((Part.operand o).Exceeds d)
      (o.render (c.speaking d)).result) :
    d.Hinges (∃ o ∈ operands, (Part.operand o).Exceeds d)
      (renderCoalesce (c.speaking d) operands).result := by
  have enough : ¬operands.length < 2 := by omega
  simp only [renderCoalesce, enough, ↓reduceIte, Render.result_bind]
  exact (Dialect.Hinges.all operand).arrange

theorem renderNullIf_hinges {left right : Operand} {l r : Sql} (named : c.style = .named)
    (first : (left.render c).result = .ok l) (second : (right.render c).result = .ok r) :
    d.Hinges ((Part.operand left).Exceeds d ∨ (Part.operand right).Exceeds d)
      (renderNullIf (c.speaking d) left right).result := by
  simp only [renderNullIf, Render.result_bind]
  exact (Operand.hinges named first).bind fun _ => (Operand.hinges named second).arrange

theorem MathCall.render_hinges {call : MathCall} {column : Sql} {argument : Option Param}
    (named : c.style = .named) (columned : call.field.render c.dialect = .ok column)
    (given : call.argument? = .ok argument) :
    d.Hinges ((Part.field call.field).Exceeds d) (call.render (c.speaking d)).result := by
  simp only [MathCall.render, given, Render.lift_eq, Render.ofExcept_ok_bind, Render.result_bind]
  cases argument with
  | none => exact (Field.hinges columned).arrange
  | some p =>
    simp only [Render.result_bind]
    exact ((Field.hinges columned).bind fun _ =>
      (Context.param_hinges named p).arrange).congr (by simp)

theorem renderCast_hinges {field : Field} {column : Sql} {type : CastType}
    (columned : field.render c.dialect = .ok column) :
    d.Hinges (d.lacks (.cast type) = true ∨ (Part.field field).Exceeds d)
      (renderCast (c.speaking d) field type) :=
  ((Field.hinges columned).bind fun _ => Dialect.castType_hinges.arrange).congr or_comm

theorem renderBinary_hinges {field : Field} {column : Sql} {op : BinaryOp} (named : c.style = .named)
    (columned : field.render c.dialect = .ok column) (p : Param) :
    d.Hinges ((op.isVector = true ∧ d.lacks (.vectorOperator op) = true) ∨
        (Part.field field).Exceeds d)
      (renderBinary (c.speaking d) field op p).result := by
  simp only [renderBinary, Render.result_bind, Render.lift_eq, Render.result_ofExcept]
  refine ((Field.hinges columned).bind fun _ => (Context.param_hinges named p).bind fun _ =>
    Dialect.binary_hinges).congr ?_
  simp [or_comm]

theorem WindowCall.render_hinges {w : WindowCall} {call : Sql} {partitioned framed : List Sql}
    {items : List α} (named : c.style = .named) (called : w.Calls c call)
    (partition : WindowCall.partitionParts c.dialect w.window.partitionBy = .ok partitioned)
    (bounded : WindowCall.frameParts w.window.frame = .ok framed)
    (order : ∀ o ∈ items, d.Hinges (falls o) (f o).result) :
    d.Hinges ((∃ g ∈ w.field, (Part.field g).Exceeds d) ∨
        (∃ g ∈ w.window.partitionBy, (Part.field g).Exceeds d) ∨ ∃ o ∈ items, falls o)
      (w.render (c.speaking d) (items.map f)).result := by
  simp only [WindowCall.render, Render.result_bind]
  exact (WindowCall.renderCall_hinges named called).bind fun _ =>
    (WindowCall.renderOver_hinges (c.speaking d) partition bounded order).arrange

theorem renderFieldExpr_hinges (plain : d.Hinges short rendered.result) (alias? : Option Alias) :
    d.Hinges short (renderFieldExpr rendered alias?).result := by
  simp only [renderFieldExpr, Render.result_bind]
  cases alias? <;> exact plain.arrange

theorem renderOrderItem_hinges (plain : d.Hinges short rendered.result) (direction : Direction)
    (nulls : Option NullsPlacement) :
    d.Hinges ((nulls.isSome = true ∧ d.lacks .nullsOrdering = true) ∨ short)
      (renderOrderItem (c.speaking d) rendered direction nulls).result := by
  simp only [renderOrderItem, Render.result_bind]
  cases nulls with
  | none => exact plain.arrange.congr (by simp)
  | some nulls =>
    simp only [Render.result_bind, Render.lift_eq, Render.result_ofExcept]
    refine (plain.bind fun _ => (Dialect.Hinges.require (by simp)).arrange).congr ?_
    simp [or_comm]

theorem renderWhen_hinges (named : c.style = .named) (holds : d.Hinges short rendered.result)
    (result : Param) : d.Hinges short (renderWhen (c.speaking d) rendered result).result := by
  simp only [renderWhen, Render.result_bind]
  exact (holds.bind fun _ => (Context.param_hinges named result).arrange).congr (by simp)

theorem renderSimple_null_hinges {field : Field} {column : Sql} {op : Operator}
    (columned : field.render c.dialect = .ok column) (unary : op.isUnary = true) :
    d.Hinges ((Part.field field).Exceeds d) (renderSimple (c.speaking d) field op none).result := by
  simp only [renderSimple, unary, Render.result_bind, Render.lift_eq, Render.result_ofExcept,
    ↓reduceIte, Option.isSome_none, Bool.false_eq_true]
  exact (Field.hinges columned).arrange

theorem renderSimple_param_hinges {field : Field} {column : Sql} {op : Operator}
    (named : c.style = .named) (columned : field.render c.dialect = .ok column)
    (binary : op.isUnary = false) (takes : op.takesParam = true) (p : Param) :
    d.Hinges ((Part.field field).Exceeds d)
      (renderSimple (c.speaking d) field op (some p)).result := by
  simp only [renderSimple, binary, takes, Render.result_bind, Render.lift_eq,
    Render.result_ofExcept, ↓reduceIte, Bool.false_eq_true, Bool.not_true]
  exact ((Field.hinges columned).bind fun _ =>
    (Context.param_hinges named p).arrange).congr (by simp)

theorem renderGroup_hinges {scope : Scope} {op : Connective} (nested : Bool)
    {items : List Condition} (several : 2 ≤ items.length)
    (each : ∀ x ∈ items, d.Hinges ((Part.condition x).Exceeds d)
      ((Node.condition scope true x).render c).result) :
    d.Hinges (∃ x ∈ items, (Part.condition x).Exceeds d)
      ((Condition.group op items).render c scope nested).result := by
  have written : (Condition.group op items).render c scope nested =
      renderGroup op nested (items.map fun x => (Node.condition scope true x).render c) := by
    rcases items with - | ⟨a, - | ⟨b, rest⟩⟩
    · simp at several
    · simp at several
    · simp only [List.map_cons, Condition.render, renderItems_eq]
  rw [written]
  simp only [renderGroup, Render.result_bind]
  exact (Dialect.Hinges.all each).arrange

theorem renderFieldComparison_hinges {left right : Field} {op : Operator} {l r : Sql}
    (comparing : (op.isComparison || op.isPattern) = true)
    (first : left.render c.dialect = .ok l) (second : right.render c.dialect = .ok r) :
    d.Hinges ((Part.field left).Exceeds d ∨ (Part.field right).Exceeds d)
      (renderFieldComparison (c.speaking d) left op right) := by
  simp only [renderFieldComparison, comparing, ↓reduceIte]
  exact (Field.hinges first).bind fun _ => (Field.hinges second).arrange

theorem renderSubquery_hinges {field : Option Field} {op : Operator} {operation : Operation}
    {left : Sql} {child : Context} {inner : Context → Render Sql}
    (started : subqueryLeft c field op = .ok left) (reading : checkSubquery operation = .ok ())
    (entered : c.enter = .ok child) (below : d.Hinges short (inner (child.speaking d)).result) :
    d.Hinges ((∃ g ∈ field, (Part.field g).Exceeds d) ∨ short)
      (renderSubquery (c.speaking d) field op operation inner).result := by
  simp only [renderSubquery, reading, Context.enter_speaking entered, Render.result_bind,
    Render.lift_eq, Render.result_ofExcept, Render.ofExcept_ok_bind]
  exact (subqueryLeft_hinges started).bind fun _ => below.arrange

theorem renderBetween_hinges {field : Field} {column : Sql} (named : c.style = .named)
    (columned : field.render c.dialect = .ok column) (low high : Param) (negated : Bool) :
    d.Hinges ((Part.field field).Exceeds d)
      (renderBetween (c.speaking d) field low high negated).result := by
  simp only [renderBetween, Render.result_bind, Render.lift_eq, Render.result_ofExcept]
  exact ((Field.hinges columned).bind fun _ => (Context.param_hinges named low).bind fun _ =>
    (Context.param_hinges named high).arrange).congr (by simp)

theorem renderAggregateCondition_hinges {kind : AggregateKind} {field : Option Field}
    {column : Option Sql} {op : Operator} (named : c.style = .named)
    (comparing : op.isComparison = true)
    (columned : aggregateField c.dialect kind field .aggregateField = .ok column) (p : Param) :
    d.Hinges (∃ g ∈ field, (Part.field g).Exceeds d)
      (renderAggregateCondition (c.speaking d) .having kind field op p).result := by
  simp only [renderAggregateCondition, comparing, ne_eq, not_true_eq_false, Bool.not_true,
    Bool.false_eq_true, ↓reduceIte, Render.result_bind]
  exact ((renderAggregate_none_hinges columned).bind fun _ =>
    (Context.param_hinges named p).arrange).congr (by simp)

theorem renderExpressionCondition_hinges {scope : Scope} {aggregates : Bool} {op : Operator}
    (named : c.style = .named) (comparing : (op.isComparison || op.isPattern) = true)
    (placed : aggregates = true → scope = .having) (computed : d.Hinges short rendered.result)
    (p : Param) :
    d.Hinges short
      (renderExpressionCondition (c.speaking d) scope aggregates rendered op p).result := by
  have placed : (aggregates && decide (scope ≠ .having)) = false := by
    cases aggregates
    · rfl
    · simp [placed rfl]
  simp only [renderExpressionCondition, comparing, placed, Bool.not_true, Bool.false_eq_true,
    ↓reduceIte, Render.result_bind]
  exact (computed.bind fun _ => (Context.param_hinges named p).arrange).congr (by simp)

theorem renderJoin_none_hinges {j : Join} (formed : j.isWellFormed = true) :
    d.Hinges (d.lacks (.join j.kind) = true) (renderJoin (c.speaking d) j none).result := by
  simp only [renderJoin, formed, Bool.not_true, Bool.false_eq_true, ↓reduceIte,
    Render.result_bind, Render.lift_eq, Render.result_ofExcept]
  exact (Dialect.Hinges.require (by simp)).arrange

theorem renderJoin_some_hinges {j : Join} (formed : j.isWellFormed = true)
    (matching : d.Hinges short rendered.result) :
    d.Hinges (d.lacks (.join j.kind) = true ∨ short)
      (renderJoin (c.speaking d) j (some rendered)).result := by
  simp only [renderJoin, formed, Bool.not_true, Bool.false_eq_true, ↓reduceIte,
    Render.result_bind, Render.lift_eq, Render.result_ofExcept]
  exact (Dialect.Hinges.require (by simp)).bind fun _ => matching.arrange

end Constituents
end TypedSql
