import TypedSql.Proofs.Render.Constituents
import TypedSql.Tree.Build

namespace TypedSql

def RenderError.isMisfit : RenderError → Bool
  | .invalidOperator _ _ | .missingOperand _ | .unexpectedOperand _ | .invalidJoin _ _ => true
  | _ => false

/-- That nothing is refused for the operator or the operands of a node. -/
def Fitting {α : Type} (x : Except RenderError α) : Prop :=
  ∀ e, x = .error e → e.isMisfit = false

/-- A condition that a constructor makes. Groups and ranges take any members and bounds. -/
inductive Condition.Constructed : Condition → Prop where
  | simple {f op p x} (made : newSimple f op p = .ok x) : Constructed x
  | isNull {f} : Constructed (isNull f)
  | isNotNull {f} : Constructed (isNotNull f)
  | allOf {items} : Constructed (allOf items)
  | anyOf {items} : Constructed (anyOf items)
  | fieldComparison {left op right x} (made : newFieldComparison left op right = .ok x) :
      Constructed x
  | subquery {f op q x} (made : newSubquery f op q = .ok x) : Constructed x
  | between {f low high negated} : Constructed (.between f low high negated)
  | aggregate {kind f op p x} (made : newAggregate kind f op p = .ok x) : Constructed x
  | expression {e op p x} (made : newExpression e op p = .ok x) : Constructed x

def Join.Constructed (j : Join) : Prop := Join.new j.kind j.table j.on = .ok j

/-- Whether the operator of a condition and its operands go together. -/
def Condition.fits : Condition → Bool
  | .simple _ op param => if op.isUnary then param.isNone else op.takesParam && param.isSome
  | .group _ _ | .between _ _ _ _ => true
  | .fieldComparison _ op _ | .expression _ op _ => op.isComparison || op.isPattern
  | .subquery f op _ =>
    if op.isExistence then f.isNone else f.isSome && (op.isMembership || op.isComparison)
  | .aggregate kind f op _ => op.isComparison && (f.isSome || kind = .count)

/-- That what a condition is made of renders in its place. A member of a group does so with
    brackets and without, a query one level deeper, an aggregate in HAVING. -/
def Condition.PartsRender (c : Context) (scope : Scope) : Condition → Prop
  | .simple f _ _ | .between f _ _ _ => ∃ s, f.render c.dialect = .ok s
  | .group _ items =>
    ∀ item ∈ items, ∀ nested, ∃ s, (item.render c scope nested).result = .ok s
  | .fieldComparison left _ right =>
    (∃ s, left.render c.dialect = .ok s) ∧ ∃ s, right.render c.dialect = .ok s
  | .subquery f _ q =>
    (∀ g ∈ f, ∃ s, g.render c.dialect = .ok s) ∧
      ∀ child, c.enter = .ok child → ∃ s, (q.render child).result = .ok s
  | .aggregate _ f _ _ => scope = .having ∧ ∀ g ∈ f, ∃ s, g.render c.dialect = .ok s
  | .expression e _ _ => ∃ s, (e.render c).result = .ok s

theorem Operator.isUnary_of_takesParam {op : Operator} (takes : op.takesParam = true) :
    op.isUnary = false := by
  revert takes
  cases op <;> decide

theorem Operator.isUnary_iff {op : Operator} :
    op.isUnary = true ↔ op = .isNull ∨ op = .isNotNull := by
  cases op <;> decide

namespace Condition
variable {x : Condition}

theorem newSimple_ok_iff {f : Field} {op : Operator} {p : Param} :
    newSimple f op p = .ok x ↔ op.takesParam = true ∧ .simple f op (some p) = x := by
  unfold newSimple
  split <;> simp_all [compare]

theorem newFieldComparison_ok_iff {left right : Field} {op : Operator} :
    newFieldComparison left op right = .ok x ↔
      (op.isComparison || op.isPattern) = true ∧ .fieldComparison left op right = x := by
  unfold newFieldComparison
  split <;> simp_all

theorem newSubquery_ok_iff {f : Option Field} {op : Operator} {q : Query} :
    newSubquery f op q = .ok x ↔
      (Condition.subquery f op q).fits = true ∧ .subquery f op q = x := by
  unfold newSubquery
  cases existence : op.isExistence
  · cases comparing : op.isMembership || op.isComparison <;> cases f <;>
      simp [fits, existence, comparing]
  · cases f <;> simp [fits, existence]

theorem newAggregate_ok_iff {kind : AggregateKind} {f : Option Field} {op : Operator} {p : Param} :
    newAggregate kind f op p = .ok x ↔
      (Condition.aggregate kind f op p).fits = true ∧ .aggregate kind f op p = x := by
  unfold newAggregate
  cases comparing : op.isComparison <;> cases f <;> simp [fits, comparing]
  by_cases counts : kind = .count <;> simp [counts]

theorem newExpression_ok_iff {e : Expr} {op : Operator} {p : Param} :
    newExpression e op p = .ok x ↔
      (op.isComparison || op.isPattern) = true ∧ .expression e op p = x := by
  unfold newExpression
  split <;> simp_all

theorem fits_of_constructed (constructed : x.Constructed) : x.fits = true := by
  cases constructed with
  | simple made =>
    obtain ⟨takes, rfl⟩ := newSimple_ok_iff.mp made
    simp [fits, Operator.isUnary_of_takesParam takes, takes]
  | fieldComparison made =>
    obtain ⟨comparing, rfl⟩ := newFieldComparison_ok_iff.mp made
    exact comparing
  | subquery made =>
    obtain ⟨fits, rfl⟩ := newSubquery_ok_iff.mp made
    exact fits
  | aggregate made =>
    obtain ⟨fits, rfl⟩ := newAggregate_ok_iff.mp made
    exact fits
  | expression made =>
    obtain ⟨comparing, rfl⟩ := newExpression_ok_iff.mp made
    exact comparing
  | _ => rfl

theorem constructed_of_fits (fits : x.fits = true) : x.Constructed := by
  cases x with
  | simple f op param =>
    rw [Condition.fits] at fits
    split at fits
    · rename_i unary
      obtain rfl := Option.isNone_iff_eq_none.mp fits
      rcases Operator.isUnary_iff.mp unary with rfl | rfl
      · exact .isNull
      · exact .isNotNull
    · obtain ⟨takes, given⟩ := Bool.and_eq_true_iff.mp fits
      obtain ⟨p, rfl⟩ := Option.isSome_iff_exists.mp given
      exact .simple (newSimple_ok_iff.mpr ⟨takes, rfl⟩)
  | group op items => cases op with
    | and => exact .allOf
    | or => exact .anyOf
  | fieldComparison left op right =>
    exact .fieldComparison (newFieldComparison_ok_iff.mpr ⟨fits, rfl⟩)
  | subquery f op q => exact .subquery (newSubquery_ok_iff.mpr ⟨fits, rfl⟩)
  | between f low high negated => exact .between
  | aggregate kind f op p => exact .aggregate (newAggregate_ok_iff.mpr ⟨fits, rfl⟩)
  | expression e op p => exact .expression (newExpression_ok_iff.mpr ⟨fits, rfl⟩)

theorem constructed_iff_fits (x : Condition) : x.Constructed ↔ x.fits = true :=
  ⟨fits_of_constructed, constructed_of_fits⟩

end Condition

theorem Join.constructed_iff {j : Join} : j.Constructed ↔ j.isWellFormed = true := by
  obtain ⟨kind, table, on⟩ := j
  unfold Join.Constructed Join.new Join.isWellFormed
  cases kind.requiresCondition <;> cases on <;> simp

namespace Fitting
variable {α β : Type} {x : Except RenderError α}

theorem ok (a : α) : Fitting (.ok a : Except RenderError α) := by
  intro e made
  cases made

theorem of_ok {a : α} (made : x = .ok a) : Fitting x := made ▸ ok a

@[simp] theorem error_iff (e : RenderError) :
    Fitting (.error e : Except RenderError α) ↔ e.isMisfit = false := by
  simp [Fitting]

theorem bind_iff {f : α → Except RenderError β} (rest : ∀ a, x = .ok a → Fitting (f a)) :
    Fitting (x >>= f) ↔ Fitting x := by
  cases x with
  | error e => exact (error_iff e).trans (error_iff e).symm
  | ok a => exact iff_of_true (rest a rfl) (ok a)

theorem bind {f : α → Except RenderError β} (first : Fitting x)
    (rest : ∀ a, x = .ok a → Fitting (f a)) : Fitting (x >>= f) :=
  (bind_iff rest).mpr first

theorem map {f : α → β} (first : Fitting x) : Fitting (x.map f) := by
  cases x with
  | error e => exact (error_iff e).mpr ((error_iff e).mp first)
  | ok a => exact ok _

theorem arrange {f : α → β} (first : Fitting x) : Fitting (x >>= fun a => .ok (f a)) :=
  first.bind fun _ _ => ok _

theorem require (d : Dialect) (feature : Feature) : Fitting (d.require feature) := by
  unfold Dialect.require
  split
  · exact ok ()
  · simp [RenderError.isMisfit]

theorem param (c : Context) (p : Param) : Fitting (c.param p).result := by
  unfold Context.param
  cases c.style
  · exact ok _
  · exact map (require _ _)

theorem all {xs : List (Render α)} (each : ∀ x ∈ xs, Fitting x.result) :
    Fitting (Render.all xs).result := by
  induction xs with
  | nil => exact ok _
  | cons x rest ih =>
    obtain ⟨first, others⟩ := List.forall_mem_cons.mp each
    simp only [Render.all, Render.result_bind, Render.result_pure]
    exact first.bind fun _ _ => (ih others).arrange

end Fitting

theorem Context.fitting_enter (c : Context) : Fitting c.enter := by
  unfold Context.enter
  split
  · exact .ok _
  · simp [RenderError.isMisfit]

theorem fitting_checkSubquery (operation : Operation) : Fitting (checkSubquery operation) := by
  cases operation with
  | select | count => exact .ok ()
  | insert | update | delete => simp [checkSubquery, RenderError.isMisfit]

section Rendering
variable {c : Context}

theorem fitting_simple {f : Field} {op : Operator} {param : Option Param} {column : Sql}
    (columned : f.render c.dialect = .ok column) :
    Fitting (renderSimple c f op param).result ↔ (Condition.simple f op param).fits = true := by
  simp only [renderSimple, Render.lift_eq, columned, Render.ofExcept_ok_bind, Condition.fits]
  cases unary : op.isUnary
  · cases takes : op.takesParam
    · simp [RenderError.isMisfit]
    · cases param with
      | none => simp [RenderError.isMisfit]
      | some p => simpa using (Fitting.param c p).arrange
  · cases param <;> simp [RenderError.isMisfit, Fitting.ok]

theorem fitting_group {op : Connective} {items : List Condition} {scope : Scope} {nested : Bool}
    (members : ∀ item ∈ items, ∀ nested, ∃ s, (item.render c scope nested).result = .ok s) :
    Fitting ((Condition.group op items).render c scope nested).result := by
  obtain _ | ⟨only, _ | ⟨second, rest⟩⟩ := items
  · simp [Condition.render, RenderError.isMisfit]
  · obtain ⟨s, made⟩ := members only List.mem_cons_self nested
    exact .of_ok made
  · simp only [Condition.render, renderGroup, renderItems_eq, Render.result_bind,
      Render.result_pure]
    refine (Fitting.all (List.forall_mem_map.mpr fun item member => ?_)).arrange
    obtain ⟨s, made⟩ := members item member true
    exact .of_ok made

theorem fitting_between {f : Field} {low high : Param} {negated : Bool} {column : Sql}
    (columned : f.render c.dialect = .ok column) :
    Fitting (renderBetween c f low high negated).result := by
  simp only [renderBetween, Render.lift_eq, Render.result_bind, Render.result_ofExcept,
    Render.result_pure]
  exact (Fitting.of_ok columned).bind fun _ _ =>
    (Fitting.param c low).bind fun _ _ => (Fitting.param c high).arrange

theorem fitting_fieldComparison {left right : Field} {op : Operator} {l r : Sql}
    (first : left.render c.dialect = .ok l) (second : right.render c.dialect = .ok r) :
    Fitting (renderFieldComparison c left op right) ↔
      (Condition.fieldComparison left op right).fits = true := by
  unfold renderFieldComparison Condition.fits
  split
  · rename_i comparing
    rw [first, second]
    exact iff_of_true (.ok _) comparing
  · rename_i other
    simpa [RenderError.isMisfit] using other

theorem fitting_subqueryLeft {f : Option Field} {op : Operator} {q : Query}
    (columned : ∀ g ∈ f, ∃ s, g.render c.dialect = .ok s) :
    Fitting (subqueryLeft c f op) ↔ (Condition.subquery f op q).fits = true := by
  simp only [subqueryLeft, Condition.fits]
  cases existence : op.isExistence <;> cases f
  case false.none => simp [RenderError.isMisfit]
  case false.some g =>
    obtain ⟨s, made⟩ := columned g rfl
    cases comparing : op.isMembership || op.isComparison
    · simp [RenderError.isMisfit]
    · simpa [made] using Fitting.map (.ok s)
  case true.none => simpa using Fitting.ok _
  case true.some => simp [RenderError.isMisfit]

theorem fitting_subquery {f : Option Field} {op : Operator} {q : Query}
    (columned : ∀ g ∈ f, ∃ s, g.render c.dialect = .ok s)
    (inner : ∀ child, c.enter = .ok child → ∃ s, (q.render child).result = .ok s) :
    Fitting (renderSubquery c f op q.operation fun child => q.render child).result ↔
      (Condition.subquery f op q).fits = true := by
  rw [← fitting_subqueryLeft columned]
  simp only [renderSubquery, Render.lift_eq, Render.result_bind, Render.result_ofExcept,
    Render.result_pure]
  refine Fitting.bind_iff fun left _ => (fitting_checkSubquery _).bind fun _ _ =>
    c.fitting_enter.bind fun child entered => ?_
  obtain ⟨s, made⟩ := inner child entered
  exact (Fitting.of_ok made).arrange

theorem fitting_aggregateField {kind : AggregateKind} {f : Option Field} {op : Operator} {p : Param}
    (comparing : op.isComparison = true) (columned : ∀ g ∈ f, ∃ s, g.render c.dialect = .ok s) :
    Fitting (aggregateField c.dialect kind f .aggregateField) ↔
      (Condition.aggregate kind f op p).fits = true := by
  cases f with
  | some g =>
    obtain ⟨s, made⟩ := columned g rfl
    refine iff_of_true ?_ (by simp [Condition.fits, comparing])
    exact .of_ok (by simp only [aggregateField, made]; rfl)
  | none =>
    cases kind
    case count => exact iff_of_true (.ok _) (by simp [Condition.fits, comparing])
    all_goals simp [aggregateField, Condition.fits, RenderError.isMisfit]

theorem fitting_aggregate {kind : AggregateKind} {f : Option Field} {op : Operator} {p : Param}
    (columned : ∀ g ∈ f, ∃ s, g.render c.dialect = .ok s) :
    Fitting (renderAggregateCondition c .having kind f op p).result ↔
      (Condition.aggregate kind f op p).fits = true := by
  cases comparing : op.isComparison
  · simp [renderAggregateCondition, Condition.fits, RenderError.isMisfit, comparing]
  · rw [← fitting_aggregateField comparing columned]
    simp only [renderAggregateCondition, renderAggregate, comparing, Bool.not_true, ne_eq,
      not_true_eq_false, Bool.false_eq_true, ↓reduceIte, Render.lift_eq, Render.result_bind,
      Render.result_ofExcept, Render.result_pure]
    exact (Fitting.bind_iff fun _ _ => (Fitting.param c p).arrange).trans
      (Fitting.bind_iff fun _ _ => .ok _)

theorem fitting_expression {scope : Scope} {e : Expr} {op : Operator} {p : Param} {s : Sql}
    (computed : (e.render c).result = .ok s) :
    Fitting (renderExpressionCondition c scope e.isAggregate (e.render c) op p).result ↔
      (Condition.expression e op p).fits = true := by
  simp only [renderExpressionCondition, Condition.fits]
  cases comparing : op.isComparison || op.isPattern
  · simp [RenderError.isMisfit]
  · refine iff_of_true ?_ rfl
    simp only [Bool.not_true, Bool.false_eq_true, ↓reduceIte]
    split
    · simp [RenderError.isMisfit]
    · simp only [Render.result_bind, Render.result_pure]
      exact (Fitting.of_ok computed).bind fun _ _ => (Fitting.param c p).arrange

theorem Condition.fitting_iff_fits {x : Condition} {scope : Scope} (parts : x.PartsRender c scope)
    (nested : Bool) : Fitting (x.render c scope nested).result ↔ x.fits = true := by
  cases x with
  | simple f op param =>
    obtain ⟨column, columned⟩ := parts
    exact fitting_simple columned
  | group op items => exact iff_of_true (fitting_group parts) rfl
  | fieldComparison left op right =>
    obtain ⟨⟨l, first⟩, r, second⟩ := parts
    exact fitting_fieldComparison first second
  | subquery f op q => exact fitting_subquery parts.1 parts.2
  | between f low high negated =>
    obtain ⟨column, columned⟩ := parts
    exact iff_of_true (fitting_between columned) rfl
  | aggregate kind f op p =>
    obtain ⟨rfl, columned⟩ := parts
    exact fitting_aggregate columned
  | expression e op p =>
    obtain ⟨s, computed⟩ := parts
    exact fitting_expression computed

theorem Join.fitting_iff {j : Join}
    (matching : ∀ on ∈ j.on, ∃ s, (on.render c .joinOn false).result = .ok s) :
    Fitting (renderJoin c j (renderOptional j.on c .joinOn)).result ↔ j.isWellFormed = true := by
  unfold renderJoin
  cases formed : j.isWellFormed
  · simp [RenderError.isMisfit]
  · refine iff_of_true ?_ rfl
    simp only [Bool.not_true, Bool.false_eq_true, ↓reduceIte, Render.lift_eq, Render.result_bind,
      Render.result_ofExcept]
    refine (Fitting.require _ _).bind fun _ _ => ?_
    cases given : j.on with
    | none => exact .ok _
    | some on =>
      obtain ⟨s, made⟩ := matching on given
      simp only [renderOptional, Render.result_bind, Render.result_pure]
      exact (Fitting.of_ok made).arrange

theorem Condition.fits_of_renders {x : Condition} {scope : Scope} {nested : Bool} {s : Sql}
    (made : Renders c (.condition scope nested x) s) : x.fits = true := by
  cases made with
  | null _ unary => simp [fits, unary]
  | simple _ binary takes => simp [fits, binary, takes]
  | only | group | between => rfl
  | fieldComparison comparing | expression comparing => exact comparing
  | subquery started =>
    refine (fitting_subqueryLeft ?_).mp (.of_ok started)
    rcases subqueryLeft_ok started with ⟨rfl, -, -⟩ | ⟨g, column, rfl, columned, -⟩
    · simp
    · simpa using ⟨column, columned⟩
  | aggregateCondition comparing made =>
    refine (fitting_aggregateField comparing ?_).mp (.of_ok made)
    rcases aggregateField_ok made with ⟨rfl, -⟩ | ⟨g, column, rfl, -, columned⟩
    · simp
    · simpa using ⟨column, columned⟩

theorem operation_of_renders {f : Option Field} {op : Operator} {q : Query} {scope : Scope}
    {nested : Bool} {s : Sql} (made : Renders c (.condition scope nested (.subquery f op q)) s) :
    q.operation = .select ∨ q.operation = .count := by
  cases made with
  | subquery _ reading =>
    revert reading
    cases q.operation <;> simp [checkSubquery]

theorem Join.isWellFormed_of_renders {j : Join} {s : Sql} (made : Renders c (.join j) s) :
    j.isWellFormed = true := by
  cases made with
  | crossJoin formed | join formed => exact formed

end Rendering

/-- The rules on the operator and the operands of a node are one, whether it is made by its
    constructor or rendered however it came about: what a constructor refuses, rendering refuses
    for the same reason and nothing else is. So whatever stands in a statement that renders could
    have been made by its constructor, and every subquery in it reads. -/
theorem construction_agrees_with_rendering :
    (∀ (c : Context) (scope : Scope) (nested : Bool) (x : Condition), x.PartsRender c scope →
      (x.Constructed ↔ Fitting (x.render c scope nested).result)) ∧
    (∀ (c : Context) (j : Join), (∀ on ∈ j.on, ∃ s, (on.render c .joinOn false).result = .ok s) →
      (j.Constructed ↔ Fitting (renderJoin c j (renderOptional j.on c .joinOn)).result)) ∧
    ∀ (statement : Statement) (options : RenderOptions) (r : Rendered),
      statement.toSql options = .ok r →
        (∀ x, (Part.condition x).Within (.statement statement) → x.Constructed) ∧
        (∀ f op q, (Part.condition (.subquery f op q)).Within (.statement statement) →
          q.operation = .select ∨ q.operation = .count) ∧
        ∀ j, (Part.join j).Within (.statement statement) → j.Constructed := by
  refine ⟨fun c scope nested x parts => ?_, fun c j matching => ?_,
    fun statement options r sent => ?_⟩
  · rw [x.constructed_iff_fits, x.fitting_iff_fits parts]
  · rw [j.constructed_iff, j.fitting_iff matching]
  · have rendered := Statement.rendered_of_toSql sent
    refine ⟨fun x within => ?_, fun f op q within => ?_, fun j within => ?_⟩
    · obtain ⟨scope, nested, c, s, made⟩ := rendered.within within
      exact x.constructed_of_fits (x.fits_of_renders made)
    · obtain ⟨scope, nested, c, s, made⟩ := rendered.within within
      exact operation_of_renders made
    · obtain ⟨c, s, made⟩ := rendered.within within
      exact j.constructed_iff.mpr (j.isWellFormed_of_renders made)

def ofUser : Condition := .simple { name := "user" } .eq (some ⟨"user", by decide⟩)

def visitedIds : Query where
  operation := .select
  table := { name := "visits" }
  fields := [⟨.field { name := "id" }, none⟩]
  filter := some ofUser

def withItems (on : Option Condition) : Join := ⟨.left, { name := "items" }, on⟩

def visitedOrders : Query where
  operation := .select
  table := { name := "orders" }
  joins := [withItems (some (.fieldComparison { name := "id" } .eq { name := "owner" }))]
  filter := some (.subquery (some { name := "id" }) .isIn visitedIds)

theorem visitedOrders_constructed :
    ((Condition.subquery none .isIn visitedIds).PartsRender (.top {}) .whereClause ∧
      ¬Fitting ((Condition.subquery none .isIn visitedIds).render (.top {}) .whereClause
        false).result) ∧
    ((∀ on ∈ (withItems none).on, ∃ s, (on.render (.top {}) .joinOn false).result = .ok s) ∧
      ¬Fitting (renderJoin (.top {}) (withItems none)
        (renderOptional none (.top {}) .joinOn)).result) ∧
    (∃ r, (Statement.query visitedOrders).toSql {} = .ok r) ∧ ofUser.Constructed ∧
      (visitedIds.operation = .select ∨ visitedIds.operation = .count) ∧
      ∀ j ∈ visitedOrders.joins, j.Constructed := by
  obtain ⟨conditions, joins, sent⟩ := construction_agrees_with_rendering
  refine ⟨?fieldless, ?unmatched, ?rendered⟩
  case fieldless =>
    have reads : (Condition.subquery none .isIn visitedIds).PartsRender (.top {}) .whereClause := by
      refine ⟨by simp, fun child entered => ?_⟩
      cases entered
      exact ⟨_, rfl⟩
    have agrees := conditions (.top {}) .whereClause false _ reads
    rw [Condition.constructed_iff_fits] at agrees
    exact ⟨reads, mt agrees.mpr (by decide)⟩
  case unmatched =>
    have nothing : ∀ on ∈ (withItems none).on,
        ∃ s, (on.render (.top {}) .joinOn false).result = .ok s := by simp [withItems]
    have agrees := joins (.top {}) (withItems none) nothing
    rw [Join.constructed_iff] at agrees
    exact ⟨nothing, mt agrees.mpr (by decide)⟩
  case rendered =>
    obtain ⟨r, success⟩ : ∃ r, (Statement.query visitedOrders).toSql {} = .ok r := ⟨_, rfl⟩
    obtain ⟨made, reading, joined⟩ := sent _ _ _ success
    have outer : (Part.query visitedOrders).Within (.statement (.query visitedOrders)) :=
      .single List.mem_cons_self
    have subquery : (Part.condition (.subquery (some { name := "id" }) .isIn visitedIds)).Within
        (.statement (.query visitedOrders)) :=
      .head (by simp [Part.parts, Query.parts, visitedOrders]) outer
    have inner : (Part.query visitedIds).Within (.statement (.query visitedOrders)) :=
      .head (by simp [Part.parts, Condition.parts]) subquery
    refine ⟨⟨r, success⟩, made _ (.head (by simp [Part.parts, Query.parts, visitedIds]) inner),
      reading _ _ _ subquery, fun j member => joined j (.head ?_ outer)⟩
    simp only [Part.parts, Query.parts, List.mem_append, List.mem_map]
    simp [member]

end TypedSql
