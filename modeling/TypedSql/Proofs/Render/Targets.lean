import TypedSql.Proofs.Render.Derivation

namespace TypedSql

theorem Render.exists_error_of_all {α β : Type} {f : α → Render β} {xs : List α} {e : RenderError}
    (failed : (Render.all (xs.map f)).result = .error e) : ∃ x ∈ xs, (f x).result = .error e := by
  induction xs with
  | nil => simp [Render.all] at failed
  | cons x rest ih =>
    simp only [List.map_cons, Render.all, Render.result_bind, Render.result_pure] at failed
    cases made : (f x).result with
    | error fault =>
      rw [made] at failed
      obtain rfl : fault = e := Except.error.inj failed
      exact ⟨x, List.mem_cons_self, made⟩
    | ok s =>
      rw [made] at failed
      cases others : (Render.all (rest.map f)).result with
      | ok parts => rw [others] at failed; cases failed
      | error fault =>
        rw [others] at failed
        obtain rfl : fault = e := Except.error.inj failed
        obtain ⟨y, member, fault⟩ := ih others
        exact ⟨y, List.mem_cons_of_mem _ member, fault⟩

def RenderError.isOfTarget : RenderError → Bool
  | .duplicateAssignment _ | .invalidAssignment .target => true
  | _ => false

/-- That nothing is refused for a column that is assigned to. -/
def SparesTargets {α : Type} (x : Except RenderError α) : Prop :=
  ∀ e, x = .error e → e.isOfTarget = false

namespace SparesTargets
variable {α β : Type} {x : Except RenderError α}

@[simp] theorem ok (a : α) : SparesTargets (.ok a : Except RenderError α) := by
  intro e made
  cases made

@[simp] theorem error_iff (e : RenderError) :
    SparesTargets (.error e : Except RenderError α) ↔ e.isOfTarget = false := by
  simp [SparesTargets]

theorem bind {f : α → Except RenderError β} (first : SparesTargets x)
    (rest : ∀ a, SparesTargets (f a)) : SparesTargets (x >>= f) := by
  cases x with
  | error e => exact (error_iff e).mpr ((error_iff e).mp first)
  | ok a => exact rest a

section Refusals
variable {e : RenderError} {f : α → Except RenderError β} (concerns : e.isOfTarget = true)
include concerns

theorem bind_eq_error_iff (first : SparesTargets x) :
    x >>= f = .error e ↔ ∃ a, x = .ok a ∧ f a = .error e := by
  cases x with
  | error fault =>
    apply iff_of_false
    · intro failed
      obtain rfl : fault = e := Except.error.inj failed
      exact absurd concerns (by simpa using first)
    · simp
  | ok a =>
    constructor
    · intro failed
      exact ⟨a, rfl, failed⟩
    · rintro ⟨b, made, failed⟩
      cases made
      exact failed

theorem bind_eq_error_iff_first (rest : ∀ a, SparesTargets (f a)) :
    x >>= f = .error e ↔ x = .error e := by
  cases x with
  | error fault =>
    constructor <;> intro failed <;> obtain rfl : fault = e := Except.error.inj failed <;> rfl
  | ok a =>
    apply iff_of_false
    · intro failed
      have spared := rest a e failed
      simp [concerns] at spared
    · simp

end Refusals

theorem map {f : α → β} (first : SparesTargets x) : SparesTargets (x.map f) := by
  cases x with
  | error e => exact (error_iff e).mpr ((error_iff e).mp first)
  | ok a => exact ok _

theorem mapM {f : α → Except RenderError β} {xs : List α}
    (each : ∀ x ∈ xs, SparesTargets (f x)) : SparesTargets (xs.mapM f) := by
  induction xs with
  | nil => exact ok _
  | cons x rest ih =>
    obtain ⟨first, others⟩ := List.forall_mem_cons.mp each
    rw [List.mapM_cons]
    exact first.bind fun _ => (ih others).bind fun _ => ok _

theorem require (d : Dialect) (feature : Feature) : SparesTargets (d.require feature) := by
  unfold Dialect.require
  split <;> simp [RenderError.isOfTarget]

theorem enter (c : Context) : SparesTargets c.enter := by
  unfold Context.enter
  split <;> simp [RenderError.isOfTarget]

theorem param (c : Context) (p : Param) : SparesTargets (c.param p).result := by
  unfold Context.param
  cases c.style
  · exact ok _
  · exact map (require _ _)

theorem all {f : α → Render β} {xs : List α} (each : ∀ x ∈ xs, SparesTargets (f x).result) :
    SparesTargets (Render.all (xs.map f)).result := by
  intro e failed
  obtain ⟨x, member, fault⟩ := Render.exists_error_of_all failed
  exact each x member e fault

end SparesTargets

section Fields
variable (d : Dialect)

theorem Field.sparesTargets (f : Field) : SparesTargets (f.render d) := by
  unfold Field.render
  split
  · exact .ok _
  · split
    · simp [RenderError.isOfTarget]
    · exact (SparesTargets.require _ _).bind fun _ => .ok _

theorem renderFields_sparesTargets (fields : List Field) :
    SparesTargets (renderFields fields d) :=
  (SparesTargets.mapM fun f _ => f.sparesTargets d).map

theorem aggregateField_sparesTargets (kind : AggregateKind) (f : Option Field)
    (missing : Missing) : SparesTargets (aggregateField d kind f missing) := by
  unfold aggregateField
  split
  · exact (Field.sparesTargets d _).map
  · exact .ok _
  · simp [RenderError.isOfTarget]

theorem renderRequired_sparesTargets (f : Option Field) (missing : Missing) :
    SparesTargets (renderRequired f missing d) := by
  cases f with
  | some f => exact f.sparesTargets d
  | none => simp [renderRequired, RenderError.isOfTarget]

theorem castType_sparesTargets (type : CastType) : SparesTargets (d.castType type) := by
  unfold Dialect.castType
  split <;> simp [RenderError.isOfTarget]

theorem binary_sparesTargets (left : Sql) (op : BinaryOp) (right : Sql) :
    SparesTargets (d.binary left op right) := by
  unfold Dialect.binary
  cases op.isVector
  · exact .ok _
  · exact (SparesTargets.require _ _).bind fun _ => .ok _

theorem Frame.sparesTargets (frame : Frame) : SparesTargets frame.render := by
  unfold Frame.render
  repeat' split
  all_goals simp [RenderError.isOfTarget]

end Fields

section Expressions
variable (c : Context)

theorem Operand.sparesTargets (o : Operand) : SparesTargets (o.render c).result := by
  cases o with
  | field f => exact f.sparesTargets c.dialect
  | param p => exact .param c p

theorem renderAggregate_sparesTargets (kind : AggregateKind) (f : Option Field)
    {filter : Option (Render Sql)} (filters : ∀ x ∈ filter, SparesTargets x.result) :
    SparesTargets (renderAggregate c kind f filter).result := by
  simp only [renderAggregate, Render.lift_eq, Render.result_bind, Render.result_ofExcept]
  apply (aggregateField_sparesTargets c.dialect kind f _).bind
  intro column
  cases filter with
  | none => exact .ok _
  | some x =>
    rw [Render.result_bind]
    apply (filters x rfl).bind
    intro condition
    split <;> exact .ok _

theorem renderCase_sparesTargets {whens : List WhenClause} {f : WhenClause → Render Sql}
    (branches : ∀ w ∈ whens, SparesTargets (f w).result) (otherwise : Option Param) :
    SparesTargets (renderCase c (whens.map f) otherwise).result := by
  unfold renderCase
  cases whens with
  | nil => simp [RenderError.isOfTarget]
  | cons w rest =>
    simp only [List.map_cons, List.isEmpty_cons, Bool.false_eq_true, ↓reduceIte,
      Render.result_bind]
    apply (SparesTargets.all branches).bind
    intro parts
    cases otherwise with
    | none => exact .ok _
    | some p =>
      simp only [Render.result_bind]
      exact (SparesTargets.param c p).bind fun _ => .ok _

theorem renderCoalesce_sparesTargets (operands : List Operand) :
    SparesTargets (renderCoalesce c operands).result := by
  unfold renderCoalesce
  split
  · simp [RenderError.isOfTarget]
  · simp only [Render.result_bind]
    exact (SparesTargets.all fun o _ => o.sparesTargets c).bind fun _ => .ok _

theorem renderNullIf_sparesTargets (left right : Operand) :
    SparesTargets (renderNullIf c left right).result := by
  simp only [renderNullIf, Render.result_bind]
  exact (left.sparesTargets c).bind fun _ => (right.sparesTargets c).bind fun _ => .ok _

theorem MathCall.sparesTargets (call : MathCall) : SparesTargets (call.render c).result := by
  have argument : SparesTargets call.argument? := by
    unfold MathCall.argument?
    split <;> simp [RenderError.isOfTarget]
  simp only [MathCall.render, Render.lift_eq, Render.result_bind, Render.result_ofExcept]
  apply (Field.sparesTargets c.dialect _).bind
  intro column
  apply argument.bind
  intro given
  cases given with
  | none => exact .ok _
  | some p =>
    rw [Render.result_bind]
    exact (SparesTargets.param c p).bind fun _ => .ok _

theorem renderCast_sparesTargets (f : Field) (type : CastType) :
    SparesTargets (renderCast c f type) :=
  (f.sparesTargets c.dialect).bind fun _ =>
    (castType_sparesTargets c.dialect type).bind fun _ => .ok _

theorem renderBinary_sparesTargets (f : Field) (op : BinaryOp) (p : Param) :
    SparesTargets (renderBinary c f op p).result := by
  simp only [renderBinary, Render.lift_eq, Render.result_bind, Render.result_ofExcept]
  exact (f.sparesTargets c.dialect).bind fun left => (SparesTargets.param c p).bind fun right =>
    binary_sparesTargets c.dialect left op right

end Expressions

section Windows
variable (c : Context) (w : WindowCall)

theorem WindowCall.shiftArguments_sparesTargets (column : Sql) :
    SparesTargets (w.shiftArguments c column).result := by
  unfold WindowCall.shiftArguments
  split
  · exact .ok _
  · simp only [Render.result_bind]
    exact (SparesTargets.param c _).bind fun _ => .ok _
  · simp only [Render.result_bind]
    exact (SparesTargets.param c _).bind fun _ => (SparesTargets.param c _).bind fun _ => .ok _
  · simp only [Render.result_bind]
    exact (SparesTargets.param c _).bind fun _ => .ok _

theorem WindowCall.renderCall_sparesTargets : SparesTargets (w.renderCall c).result := by
  have operands : SparesTargets w.checkOperands := by
    unfold WindowCall.checkOperands
    repeat' split
    all_goals simp [RenderError.isOfTarget]
  simp only [WindowCall.renderCall, Render.lift_eq, Render.result_bind, Render.result_ofExcept]
  apply operands.bind
  intro _
  split
  · split <;> simp [RenderError.isOfTarget]
  · split <;> simp [RenderError.isOfTarget]
  · split <;> simp [RenderError.isOfTarget]
  · split
    · simp [RenderError.isOfTarget]
    · split
      · simp [RenderError.isOfTarget]
      · simp only [Render.result_bind]
        exact (SparesTargets.param c _).bind fun _ => .ok _
  all_goals simp only [Render.result_bind, Render.result_ofExcept]
  · exact (renderRequired_sparesTargets _ _ _).bind fun _ =>
      (w.shiftArguments_sparesTargets c _).bind fun _ => .ok _
  · exact (renderRequired_sparesTargets _ _ _).bind fun _ =>
      (w.shiftArguments_sparesTargets c _).bind fun _ => .ok _
  · exact (renderRequired_sparesTargets _ _ _).bind fun _ => .ok _
  · exact (renderRequired_sparesTargets _ _ _).bind fun _ => .ok _
  · exact (aggregateField_sparesTargets _ _ _ _).bind fun _ => .ok _

theorem WindowCall.sparesTargets {f : OrderBy → Render Sql}
    (order : ∀ o ∈ w.window.orderBy, SparesTargets (f o).result) :
    SparesTargets (w.render c (w.window.orderBy.map f)).result := by
  have partitioned : SparesTargets (partitionParts c.dialect w.window.partitionBy) := by
    unfold partitionParts
    split
    · exact .ok _
    · exact (renderFields_sparesTargets _ _).map
  have ordered : SparesTargets (orderParts (w.window.orderBy.map f)).result := by
    unfold orderParts
    split
    · exact .ok _
    · rw [Render.result_bind]
      exact (SparesTargets.all order).bind fun _ => .ok _
  have framed : SparesTargets (frameParts w.window.frame) := by
    unfold frameParts
    split
    · exact .ok _
    · exact (Frame.sparesTargets _).map
  simp only [WindowCall.render, renderOver, Render.lift_eq, Render.result_bind,
    Render.result_ofExcept]
  apply (w.renderCall_sparesTargets c).bind
  intro call
  apply SparesTargets.bind
  · exact partitioned.bind fun _ => ordered.bind fun _ => framed.bind fun _ => .ok _
  · exact fun _ => .ok _

end Windows

section Conditions
variable (c : Context)

theorem renderSimple_sparesTargets (f : Field) (op : Operator) (p : Option Param) :
    SparesTargets (renderSimple c f op p).result := by
  simp only [renderSimple, Render.lift_eq, Render.result_bind, Render.result_ofExcept]
  apply (f.sparesTargets c.dialect).bind
  intro column
  split
  · split <;> simp [RenderError.isOfTarget]
  · split
    · simp [RenderError.isOfTarget]
    · cases p with
      | none => simp [RenderError.isOfTarget]
      | some p =>
        simp only [Render.result_bind]
        exact (SparesTargets.param c p).bind fun _ => .ok _

theorem renderFieldComparison_sparesTargets (left : Field) (op : Operator) (right : Field) :
    SparesTargets (renderFieldComparison c left op right) := by
  unfold renderFieldComparison
  split
  · exact (left.sparesTargets c.dialect).bind fun _ =>
      (right.sparesTargets c.dialect).bind fun _ => .ok _
  · simp [RenderError.isOfTarget]

theorem renderBetween_sparesTargets (f : Field) (low high : Param) (negated : Bool) :
    SparesTargets (renderBetween c f low high negated).result := by
  simp only [renderBetween, Render.lift_eq, Render.result_bind, Render.result_ofExcept]
  exact (f.sparesTargets c.dialect).bind fun _ => (SparesTargets.param c low).bind fun _ =>
    (SparesTargets.param c high).bind fun _ => .ok _

theorem renderSubquery_sparesTargets (f : Option Field) (op : Operator) (q : Query)
    (inner : checkSubquery q.operation = .ok () →
      ∀ child, SparesTargets (q.render child).result) :
    SparesTargets (renderSubquery c f op q.operation fun child => q.render child).result := by
  have left : SparesTargets (subqueryLeft c f op) := by
    unfold subqueryLeft
    split
    · simp [RenderError.isOfTarget]
    · exact .ok _
    · split
      · exact (Field.sparesTargets c.dialect _).map
      · simp [RenderError.isOfTarget]
    · simp [RenderError.isOfTarget]
  simp only [renderSubquery, Render.lift_eq, Render.result_bind, Render.result_ofExcept]
  apply left.bind
  intro _
  cases reading : checkSubquery q.operation with
  | error e =>
    revert reading
    cases q.operation <;> simp only [checkSubquery, Except.error.injEq, reduceCtorEq,
      false_implies] <;> rintro rfl <;> simp [bind, Except.bind, RenderError.isOfTarget]
  | ok u =>
    exact SparesTargets.bind (.ok _) fun _ => (SparesTargets.enter c).bind fun child =>
      (inner reading child).bind fun _ => .ok _

theorem renderAggregateCondition_sparesTargets (scope : Scope) (kind : AggregateKind)
    (f : Option Field) (op : Operator) (p : Param) :
    SparesTargets (renderAggregateCondition c scope kind f op p).result := by
  unfold renderAggregateCondition
  split
  · simp [RenderError.isOfTarget]
  · split
    · simp [RenderError.isOfTarget]
    · simp only [Render.result_bind]
      exact (renderAggregate_sparesTargets c kind f (by simp)).bind fun _ =>
        (SparesTargets.param c p).bind fun _ => .ok _

theorem renderExpressionCondition_sparesTargets (scope : Scope) (isAggregate : Bool)
    {left : Render Sql} (computed : SparesTargets left.result) (op : Operator) (p : Param) :
    SparesTargets (renderExpressionCondition c scope isAggregate left op p).result := by
  unfold renderExpressionCondition
  split
  · simp [RenderError.isOfTarget]
  · split
    · simp [RenderError.isOfTarget]
    · simp only [Render.result_bind]
      exact computed.bind fun _ => (SparesTargets.param c p).bind fun _ => .ok _

theorem renderJoin_sparesTargets (j : Join) {on : Option (Render Sql)}
    (matching : ∀ x ∈ on, SparesTargets x.result) : SparesTargets (renderJoin c j on).result := by
  unfold renderJoin
  split
  · simp [RenderError.isOfTarget]
  · simp only [Render.lift_eq, Render.result_bind, Render.result_ofExcept]
    apply (SparesTargets.require _ _).bind
    intro _
    cases on with
    | none => exact .ok _
    | some x =>
      rw [Render.result_bind]
      exact (matching x rfl).bind fun _ => .ok _

end Conditions

section Queries
variable {c : Context} {α : Type} {f : α → Render Sql}

theorem renderConditional_sparesTargets (keyword : String) {x : Option (Render Sql)}
    (filters : ∀ y ∈ x, SparesTargets y.result) :
    SparesTargets (renderConditional keyword x).result := by
  cases x with
  | none => exact .ok _
  | some x =>
    simp only [renderConditional, Render.result_bind]
    exact (filters x rfl).bind fun _ => .ok _

theorem renderJoins_sparesTargets {joins : List α}
    (joined : ∀ j ∈ joins, SparesTargets (f j).result) :
    SparesTargets (renderJoins (joins.map f)).result := by
  simp only [renderJoins, Render.result_bind]
  exact (SparesTargets.all joined).bind fun _ => .ok _

theorem renderProjection_sparesTargets {fields : List α}
    (projects : ∀ x ∈ fields, SparesTargets (f x).result) :
    SparesTargets (renderProjection (fields.map f)).result := by
  unfold renderProjection
  split
  · exact .ok _
  · rw [Render.result_bind]
    exact (SparesTargets.all projects).bind fun _ => .ok _

theorem renderOrderClause_sparesTargets {items : List α}
    (order : ∀ o ∈ items, SparesTargets (f o).result) :
    SparesTargets (renderOrderClause (items.map f)).result := by
  unfold renderOrderClause
  split
  · exact .ok _
  · rw [Render.result_bind]
    exact (SparesTargets.all order).bind fun _ => .ok _

theorem Query.checkClauses_sparesTargets (q : Query) : SparesTargets q.checkClauses := by
  unfold Query.checkClauses
  split <;> simp [RenderError.isOfTarget]

theorem renderDistinct_sparesTargets (d : Dialect) (distinct : Bool) (fields : List Field) :
    SparesTargets (renderDistinct d distinct fields) := by
  unfold renderDistinct
  split
  · exact .ok _
  · split
    · exact .ok _
    · exact (SparesTargets.require _ _).bind fun _ =>
        (renderFields_sparesTargets d fields).bind fun _ => .ok _

theorem renderGroupBy_sparesTargets (d : Dialect) (fields : List Field) :
    SparesTargets (renderGroupBy d fields) := by
  unfold renderGroupBy
  split
  · exact .ok _
  · exact (renderFields_sparesTargets d fields).bind fun _ => .ok _

theorem renderLock_sparesTargets (d : Dialect) (lock : Option RowLock) :
    SparesTargets (renderLock d lock) := by
  cases lock with
  | none => exact .ok _
  | some lock =>
    apply SparesTargets.bind
    · exact (SparesTargets.require _ _).bind fun _ => .ok _
    · intro clause
      cases clause <;> exact .ok _

theorem Query.checkSelect_sparesTargets (q : Query) : SparesTargets q.checkSelect := by
  unfold Query.checkSelect
  repeat' split
  all_goals simp [RenderError.isOfTarget]

theorem renderOutput_sparesTargets (d : Dialect) (source : OutputSource) (fields : List Field) :
    SparesTargets (renderOutput d source fields) := by
  unfold renderOutput
  split
  · exact .ok _
  · apply (SparesTargets.mapM _).map
    intro f _
    unfold renderOutputColumn
    split <;> simp [RenderError.isOfTarget]

theorem renderReturning_sparesTargets (d : Dialect) (fields : List Field) :
    SparesTargets (renderReturning d fields) := by
  unfold renderReturning
  split
  · exact .ok _
  · split
    · exact (renderFields_sparesTargets d fields).map
    · exact .ok _
    · simp [RenderError.isOfTarget]

end Queries

def Part.SparesTargets : Part → Prop
  | .expr e => ∀ c, TypedSql.SparesTargets (e.render c).result
  | .projected f => ∀ c, TypedSql.SparesTargets ((Node.projected f).render c).result
  | .ordered o => ∀ c, TypedSql.SparesTargets ((Node.ordered o).render c).result
  | .whenClause w => ∀ c, TypedSql.SparesTargets ((Node.whenClause w).render c).result
  | .condition x => ∀ c scope nested, TypedSql.SparesTargets (x.render c scope nested).result
  | .join j => ∀ c, TypedSql.SparesTargets ((Node.join j).render c).result
  | .assignment a => ∀ c, TypedSql.SparesTargets ((Node.assigned a.value).render c).result
  | .query q => checkSubquery q.operation = .ok () →
    ∀ c, TypedSql.SparesTargets (q.render c).result
  | _ => True

namespace Part
variable {e : Expr} {x : Condition} {q : Query}

theorem sparesTargets_expr (below : ∀ p ∈ e.parts, p.SparesTargets) :
    (Part.expr e).SparesTargets := by
  intro c
  cases e with
  | field f => exact f.sparesTargets c.dialect
  | aggregate call =>
    obtain ⟨kind, f, filter⟩ := call
    rw [Expr.render, renderOptional_eq]
    apply renderAggregate_sparesTargets
    intro y given
    obtain ⟨x, rfl, rfl⟩ := Option.mem_map.mp given
    exact below (.condition x) (by simp [Expr.parts]) c .filter false
  | case cases =>
    obtain ⟨whens, otherwise⟩ := cases
    rw [Expr.render, renderWhens_eq]
    apply renderCase_sparesTargets
    intro w member
    exact below (.whenClause w) (by simpa [Expr.parts] using member) c
  | coalesce operands => exact renderCoalesce_sparesTargets c operands
  | nullIf left right => exact renderNullIf_sparesTargets c left right
  | math call => exact call.sparesTargets c
  | cast f type => exact renderCast_sparesTargets c f type
  | window w =>
    obtain ⟨function, f, bucket, offset, fallback, ⟨partitionBy, orderBy, frame⟩⟩ := w
    rw [Expr.render, renderOrder_eq]
    apply WindowCall.sparesTargets c
      ⟨function, f, bucket, offset, fallback, ⟨partitionBy, orderBy, frame⟩⟩
    intro o member
    exact below (.ordered o) (by simp [Expr.parts, member]) c
  | binary f op p => exact renderBinary_sparesTargets c f op p

theorem sparesTargets_condition (below : ∀ p ∈ x.parts, p.SparesTargets) :
    (Part.condition x).SparesTargets := by
  intro c scope nested
  cases x with
  | simple f op p => exact renderSimple_sparesTargets c f op p
  | group op items =>
    obtain _ | ⟨only, _ | ⟨second, rest⟩⟩ := items
    · simp [Condition.render, RenderError.isOfTarget]
    · exact below (.condition only) (by simp [Condition.parts]) c scope nested
    · simp only [Condition.render, renderGroup, renderItems_eq, Render.result_bind]
      apply SparesTargets.bind
      · apply SparesTargets.all
        intro item member
        exact below (.condition item) (by simpa [Condition.parts] using member) c scope true
      · exact fun _ => .ok _
  | fieldComparison left op right => exact renderFieldComparison_sparesTargets c left op right
  | subquery f op q =>
    apply renderSubquery_sparesTargets c f op q
    exact below (.query q) (by simp [Condition.parts])
  | between f low high negated => exact renderBetween_sparesTargets c f low high negated
  | aggregate kind f op p => exact renderAggregateCondition_sparesTargets c scope kind f op p
  | expression e op p =>
    apply renderExpressionCondition_sparesTargets
    exact below (.expr e) (by simp [Condition.parts]) c

theorem sparesTargets_query (below : ∀ p ∈ q.parts, p.SparesTargets) :
    (Part.query q).SparesTargets := by
  intro reading c
  have joined : TypedSql.SparesTargets
      (renderJoins (q.joins.map fun j => (Node.join j).render c)).result := by
    apply renderJoins_sparesTargets
    intro j member
    exact below (.join j) (by simp [Query.parts, member]) c
  have filters : TypedSql.SparesTargets (renderConditional "WHERE"
      (q.filter.map fun x => (Node.condition .whereClause false x).render c)).result := by
    apply renderConditional_sparesTargets
    intro y given
    obtain ⟨x, present, rfl⟩ := Option.mem_map.mp given
    exact below (.condition x) (by simp [Query.parts, Option.mem_def.mp present]) c .whereClause false
  rw [renderQuery_eq, renderOperation]
  cases operation : q.operation with
  | insert | update | delete => rw [operation] at reading; cases reading
  | count =>
    simp only [renderCount, Render.lift_eq, Render.result_bind, Render.result_ofExcept]
    exact q.checkClauses_sparesTargets.bind fun _ => joined.bind fun _ => filters.bind fun _ => .ok _
  | select =>
    have having : TypedSql.SparesTargets (renderConditional "HAVING"
        (q.having.map fun x => (Node.condition .having false x).render c)).result := by
      apply renderConditional_sparesTargets
      intro y given
      obtain ⟨x, present, rfl⟩ := Option.mem_map.mp given
      exact below (.condition x) (by simp [Query.parts, Option.mem_def.mp present]) c .having false
    have projects : TypedSql.SparesTargets
        (renderProjection (q.fields.map fun f => (Node.projected f).render c)).result := by
      apply renderProjection_sparesTargets
      intro f member
      exact below (.projected f) (by simp [Query.parts, member]) c
    have order : TypedSql.SparesTargets
        (renderOrderClause (q.orderBy.map fun o => (Node.ordered o).render c)).result := by
      apply renderOrderClause_sparesTargets
      intro o member
      exact below (.ordered o) (by simp [Query.parts, member]) c
    simp only [renderSelect, Render.lift_eq, Render.result_bind, Render.result_ofExcept]
    exact q.checkClauses_sparesTargets.bind fun _ => q.checkSelect_sparesTargets.bind fun _ =>
      (renderDistinct_sparesTargets _ _ _).bind fun _ => projects.bind fun _ =>
      (renderLock_sparesTargets _ _).bind fun _ => joined.bind fun _ => filters.bind fun _ =>
      (renderGroupBy_sparesTargets _ _).bind fun _ => having.bind fun _ => order.bind fun _ => .ok _

theorem sparesTargets (p : Part) : p.SparesTargets := by
  induction p using Part.induction with | step p below
  cases p with
  | expr e => exact sparesTargets_expr below
  | condition x => exact sparesTargets_condition below
  | query q => exact sparesTargets_query below
  | projected f =>
    intro c
    simp only [Node.render, renderFieldExpr, Render.result_bind]
    apply (below (.expr f.expr) (by simp [parts]) c).bind
    intro _
    split <;> exact .ok _
  | ordered o =>
    intro c
    simp only [Node.render, renderOrderItem, Render.result_bind]
    apply (below (.expr o.expr) (by simp [parts]) c).bind
    intro _
    split
    · exact .ok _
    · simp only [Render.lift_eq, Render.result_bind, Render.result_ofExcept]
      exact (SparesTargets.require _ _).bind fun _ => .ok _
  | whenClause w =>
    intro c
    simp only [Node.render, renderWhen, Render.result_bind]
    exact (below (.condition w.condition) (by simp [parts]) c .caseWhen false).bind fun _ =>
      (SparesTargets.param c w.result).bind fun _ => .ok _
  | join j =>
    intro c
    apply renderJoin_sparesTargets c j
    intro y given
    obtain ⟨x, present, rfl⟩ := Option.mem_map.mp given
    exact below (.condition x) (by simp [parts, Option.mem_def.mp present]) c .joinOn false
  | assignment a =>
    obtain ⟨target, value⟩ := a
    intro c
    cases value with
    | param p => exact .param c p
    | expr e =>
      have admitted : TypedSql.SparesTargets (checkAssigned (.expr e)) := by
        cases e <;> simp [checkAssigned, RenderError.isOfTarget]
      simp only [Node.render, renderAssigned, Render.lift_eq, Render.result_bind,
        Render.result_ofExcept]
      exact admitted.bind fun _ => below (.expr e) (by simp [parts]) c
  | _ => trivial

end Part
end TypedSql
