import TypedSql.Proofs.Render.Simulation

namespace TypedSql

def Node.nesting : Node → Nat
  | .expr e => e.nesting
  | .projected f => f.expr.nesting
  | .ordered o => o.expr.nesting
  | .whenClause w => w.condition.nesting
  | .condition _ _ x => x.nesting
  | .join j => j.on.elim 0 Condition.nesting
  | .assigned v => v.nesting
  | .query q => q.nesting

namespace Simulation
variable {S : Simulation} {c c' : Context} {α : Type}

section Clauses
variable {f f' : α → Render Sql} {depth : α → Nat}

theorem projection {xs : List α} (each : ∀ x ∈ xs, S.Writes c (depth x) (f x) (f' x)) :
    S.Writes c (deepest (xs.map depth)) (renderProjection (xs.map f))
      (renderProjection (xs.map f')) := by
  cases xs with
  | nil => exact made (by simp)
  | cons x rest => exact andThen (all each) fun parts => made (by simp)

theorem joins {xs : List α} (each : ∀ x ∈ xs, S.Writes c (depth x) (f x) (f' x)) :
    S.Writes c (deepest (xs.map depth)) (renderJoins (xs.map f))
      (renderJoins (xs.map f')) :=
  andThen (all each) fun parts => made (by simp)

theorem conditional (keyword : String) {x : Option α}
    (each : ∀ a ∈ x, S.Writes c (depth a) (f a) (f' a)) :
    S.Writes c (x.elim 0 depth) (renderConditional keyword (x.map f))
      (renderConditional keyword (x.map f')) := by
  cases x with
  | none => exact made rfl
  | some a => exact andThen (each a rfl) fun text => made (by simp)

theorem orderClause {xs : List α} (each : ∀ x ∈ xs, S.Writes c (depth x) (f x) (f' x)) :
    S.Writes c (deepest (xs.map depth)) (renderOrderClause (xs.map f))
      (renderOrderClause (xs.map f')) := by
  cases xs with
  | nil => exact made rfl
  | cons x rest => exact andThen (all each) fun parts => made (by simp)

theorem assignments {xs : List α} (target : α → Field)
    (each : ∀ x ∈ xs, S.Writes c (depth x) (f x) (f' x)) :
    S.Writes c (deepest (xs.map depth)) (renderAssignments (xs.map fun x => (target x, f x)))
      (renderAssignments (xs.map fun x => (target x, f' x))) := by
  let base := xs.map fun x => (target x, x)
  have same : deepest (xs.map depth) = deepest ((sortAssignments base).map fun b => depth b.2) := by
    have listed : xs.map depth = base.map fun b => depth b.2 := by simp [base]
    rw [listed]
    exact (deepest_perm ((List.mergeSort_perm base _).map _)).symm
  simp only [renderAssignments, sortAssignments_beside target f, sortAssignments_beside target f',
    repeatedNeighbour?_map]
  cases repeatedNeighbour? (sortAssignments base) with
  | some name => exact S.fail _ _ _ _
  | none =>
    rw [same]
    simp only [List.map_map]
    refine andThen (all fun b member => ?_) fun sets => made (by simp)
    obtain ⟨x, inside, rfl⟩ := List.mem_map.mp (mem_sortAssignments.mp member)
    simp only [Function.comp, renderAssignment, Prod.map, id_eq]
    split
    · exact andThen (each x inside) fun value => made (by simp)
    · exact S.fail _ _ _ _

theorem join (beside : S.Beside c c') (join : Join) {on : Option α}
    (each : ∀ x ∈ on, S.Writes c' (depth x) (f x) (f' x)) :
    S.Writes c' (on.elim 0 depth) (renderJoin c join (on.map f))
      (renderJoin c' join (on.map f')) := by
  have fixed := Sql.move_of_silent S.move join.table.holes_render
  simp only [renderJoin, S.dialect_eq beside]
  split
  · exact S.fail _ _ _ _
  · refine given fun _ _ => ?_
    cases on with
    | none => exact made (by simp [fixed])
    | some x => exact andThen (each x rfl) fun text => made (by simp [fixed])

end Clauses

section Insertions
variable (beside : S.Beside c c')
include beside

theorem tuple (row : Row) : S.Writes c' 0 (renderTuple c row) (renderTuple c' row) :=
  following (allLevel fun p _ => S.param beside p) fun values => made (by simp)

theorem conflictSets {rejected : String → Sql}
    (silent : ∀ column, (rejected column).holes = []) (updates : NameMap ConflictValue) :
    S.Writes c' 0 (renderConflictSets c rejected updates)
      (renderConflictSets c' rejected updates) := by
  refine following (allLevel fun update _ => ?_) fun sets => made (by simp)
  obtain ⟨column, value⟩ := update
  cases value with
  | param p => exact following (S.param beside p) fun value => made (by simp)
  | excluded => exact made (by simp [Sql.move_of_silent _ (silent column)])

theorem onConflict (conflict : OnConflict) :
    S.Writes c' 0 (renderOnConflict c conflict) (renderOnConflict c' conflict) := by
  unfold renderOnConflict
  refine given fun target written => ?_
  have fixed := Sql.move_of_silent S.move (holes_target written)
  cases conflict.action with
  | doNothing => exact made (by simp [fixed])
  | doUpdate updates =>
    simp only
    split
    · exact S.fail _ _ _ _
    · split
      · exact S.fail _ _ _ _
      · refine following (conflictSets beside (fun _ => rfl) updates) fun sets => ?_
        exact made (by simp [fixed])

theorem upsert (conflict : Option OnConflict) :
    S.Writes c' 0 (renderUpsert c conflict) (renderUpsert c' conflict) := by
  cases conflict with
  | none => exact made rfl
  | some conflict =>
    simp only [renderUpsert, S.dialect_eq beside]
    cases c.dialect.upsertStyle with
    | onConflict => exact onConflict beside conflict
    | unsupported => exact S.fail _ _ _ _
    | onDuplicateKey =>
      simp only [renderOnDuplicateKey]
      cases conflict.action with
      | doNothing => exact made rfl
      | doUpdate updates =>
        simp only
        split
        · exact S.fail _ _ _ _
        · refine following (conflictSets beside (fun _ => rfl) updates) fun sets => ?_
          exact made (by simp)

end Insertions

section Operations
variable (beside : S.Beside c c') {q : Query} {parts parts' : QueryParts} {k : Nat}
  {projectionDepth joinDepth filterDepth havingDepth orderDepth assignmentDepth : Nat}
include beside

theorem select
    (nested : q.checkClauses = .ok () →
      k = deepest [projectionDepth, joinDepth, filterDepth, havingDepth, orderDepth])
    (projection : S.Writes c' projectionDepth (renderProjection parts.fields)
      (renderProjection parts'.fields))
    (joins : S.Writes c' joinDepth (renderJoins parts.joins) (renderJoins parts'.joins))
    (filter : S.Writes c' filterDepth (renderConditional "WHERE" parts.filter)
      (renderConditional "WHERE" parts'.filter))
    (having : S.Writes c' havingDepth (renderConditional "HAVING" parts.having)
      (renderConditional "HAVING" parts'.having))
    (order : S.Writes c' orderDepth (renderOrderClause parts.orderBy)
      (renderOrderClause parts'.orderBy)) :
    S.Writes c' k (renderSelect c q parts) (renderSelect c' q parts') := by
  have table := Sql.move_of_silent S.move q.table.holes_render
  simp only [renderSelect, S.dialect_eq beside]
  refine given fun _ clauses => given fun _ _ => given fun distinct distinctly => ?_
  rw [nested clauses]
  refine S.bind projection fun projected => given fun lock locked => S.bind joins fun joined => ?_
  refine S.bind filter fun filtered => given fun groupBy grouped => S.bind having fun had => ?_
  refine S.bind order fun ordered => made ?_
  have hints := holes_lock locked
  simp [table, Sql.move_of_silent _ (holes_distinct distinctly),
    Sql.move_of_silent _ (holes_groupBy grouped), Sql.move_of_silent _ hints.1,
    Sql.move_of_silent _ hints.2]

omit beside in
theorem count
    (nested : q.checkClauses = .ok () → k = deepest [joinDepth, filterDepth])
    (joins : S.Writes c joinDepth (renderJoins parts.joins) (renderJoins parts'.joins))
    (filter : S.Writes c filterDepth (renderConditional "WHERE" parts.filter)
      (renderConditional "WHERE" parts'.filter)) :
    S.Writes c k (renderCount q parts) (renderCount q parts') := by
  have table := Sql.move_of_silent S.move q.table.holes_render
  refine given fun _ clauses => ?_
  rw [nested clauses]
  exact S.bind joins fun joined => S.bind filter fun filtered => made (by simp [table])

theorem insert (nested : q.checkClauses = .ok () → k = 0) :
    S.Writes c' k (renderInsert c q) (renderInsert c' q) := by
  have table := Sql.move_of_silent S.move q.table.holes_render
  simp only [renderInsert, S.dialect_eq beside]
  refine given fun _ clauses => given fun first _ => ?_
  rw [nested clauses]
  refine following (allLevel fun row _ => tuple beside row) fun tuples => ?_
  refine given fun output outputs => following (upsert beside q.onConflict) fun upsert => ?_
  refine given fun returning returns => made ?_
  simp [table, Sql.move_of_silent _ (holes_output outputs),
    Sql.move_of_silent _ (holes_returning returns), Function.comp_def]

theorem update
    (nested : q.checkClauses = .ok () → k = deepest [assignmentDepth, filterDepth])
    (assignments : S.Writes c' assignmentDepth (renderAssignments parts.assignments)
      (renderAssignments parts'.assignments))
    (filter : S.Writes c' filterDepth (renderConditional "WHERE" parts.filter)
      (renderConditional "WHERE" parts'.filter)) :
    S.Writes c' k (renderUpdate c q parts) (renderUpdate c' q parts') := by
  have table := Sql.move_of_silent S.move q.table.holes_render
  simp only [renderUpdate, S.dialect_eq beside]
  refine given fun _ clauses => ?_
  split
  · exact S.fail _ _ _ _
  · rw [nested clauses]
    refine S.bind assignments fun sets => given fun output outputs => S.bind filter fun filtered => ?_
    refine given fun returning returns => made ?_
    simp [table, Sql.move_of_silent _ (holes_output outputs),
      Sql.move_of_silent _ (holes_returning returns)]

theorem delete (nested : q.checkClauses = .ok () → k = filterDepth)
    (filter : S.Writes c' filterDepth (renderConditional "WHERE" parts.filter)
      (renderConditional "WHERE" parts'.filter)) :
    S.Writes c' k (renderDelete c q parts) (renderDelete c' q parts') := by
  have table := Sql.move_of_silent S.move q.table.holes_render
  simp only [renderDelete, S.dialect_eq beside]
  refine given fun _ clauses => given fun output outputs => ?_
  rw [nested clauses]
  refine andThen filter fun filtered => given fun returning returns => made ?_
  simp [table, Sql.move_of_silent _ (holes_output outputs),
    Sql.move_of_silent _ (holes_returning returns)]

end Operations

def Keeps (S : Simulation) (n : Node) : Prop :=
  ∀ c c', S.Beside c c' → S.Writes c' n.nesting (n.render c) (n.render c')

theorem keeps_query {q : Query} (eachField : ∀ f ∈ q.fields, S.Keeps (.projected f))
    (eachJoin : ∀ j ∈ q.joins, S.Keeps (.join j))
    (eachFilter : ∀ x ∈ q.filter, S.Keeps (.condition .whereClause false x))
    (eachHaving : ∀ x ∈ q.having, S.Keeps (.condition .having false x))
    (eachOrder : ∀ o ∈ q.orderBy, S.Keeps (.ordered o))
    (eachValue : ∀ a ∈ q.assignments, S.Keeps (.assigned a.value)) : S.Keeps (.query q) := by
  intro c c' beside
  have projected := projection fun f member => eachField f member c c' beside
  have joined := joins fun j member => eachJoin j member c c' beside
  have filtered := conditional "WHERE" fun x member => eachFilter x member c c' beside
  have had := conditional "HAVING" fun x member => eachHaving x member c c' beside
  have ordered := orderClause fun o member => eachOrder o member c c' beside
  have assigned := assignments Assignment.field fun a member => eachValue a member c c' beside
  show S.Writes c' q.nesting (q.render c) (q.render c')
  rw [renderQuery_eq, renderQuery_eq]
  unfold renderOperation
  cases operation : q.operation with
  | select =>
    refine select beside (fun clauses => ?_) projected joined filtered had ordered
    have reads := q.reads_only clauses (.inl operation)
    simp [Query.nesting_eq, reads, Node.nesting]
  | count =>
    refine count (fun clauses => ?_) joined filtered
    have reads := q.reads_only clauses (.inr operation)
    have counts := q.selects_nothing clauses (by simp [operation])
    simp [Query.nesting_eq, reads, counts, Node.nesting]
  | insert =>
    refine insert beside fun clauses => ?_
    have inserts := q.inserts_only clauses operation
    have nothing := q.selects_nothing clauses (by simp [operation])
    have single := q.joins_nothing clauses (by simp [operation]) (by simp [operation])
    simp [Query.nesting_eq, inserts, nothing, single]
  | update =>
    refine update beside (fun clauses => ?_) assigned filtered
    have nothing := q.selects_nothing clauses (by simp [operation])
    have single := q.joins_nothing clauses (by simp [operation]) (by simp [operation])
    simp [Query.nesting_eq, nothing, single, Node.nesting, Nat.max_comm]
  | delete =>
    refine delete beside (fun clauses => ?_) filtered
    have nothing := q.selects_nothing clauses (by simp [operation])
    have single := q.joins_nothing clauses (by simp [operation]) (by simp [operation])
    have keeps := q.assigns_nothing clauses operation
    simp [Query.nesting_eq, nothing, single, keeps, Node.nesting]

theorem keeps_expr {e : Expr}
    (eachFilter : ∀ x, .condition x ∈ e.parts → S.Keeps (.condition .filter false x))
    (eachWhen : ∀ w, .whenClause w ∈ e.parts → S.Keeps (.whenClause w))
    (eachOrder : ∀ o, .ordered o ∈ e.parts → S.Keeps (.ordered o)) : S.Keeps (.expr e) := by
  intro c c' beside
  show S.Writes c' e.nesting (e.render c) (e.render c')
  cases e with
  | field f => exact operand beside (.field f)
  | aggregate call =>
    obtain ⟨kind, f, filter⟩ := call
    cases filter with
    | none => exact aggregate beside kind f
    | some x => exact filtered beside kind f (eachFilter x (by simp [Expr.parts]) c c' beside)
  | case cases =>
    obtain ⟨whens, otherwise⟩ := cases
    simp only [Expr.render, Expr.nesting, renderWhens_eq, whenNesting_eq]
    exact caseExpr beside (fun w member => eachWhen w (by simpa [Expr.parts]) c c' beside) otherwise
  | coalesce operands => exact coalesce beside operands
  | nullIf left right => exact nullIf beside left right
  | math call => exact mathCall beside call
  | cast f type => exact cast beside f type
  | window w =>
    obtain ⟨function, f, bucket, offset, fallback, ⟨partitionBy, orderBy, frame⟩⟩ := w
    simp only [Expr.render, Expr.nesting, renderOrder_eq, orderNesting_eq]
    exact window beside _ fun o member => eachOrder o (by simpa [Expr.parts]) c c' beside
  | binary f op p => exact binary beside f op p

theorem keeps_condition {x : Condition} (eachExpr : ∀ e, .expr e ∈ x.parts → S.Keeps (.expr e))
    (eachItem : ∀ item scope nested, .condition item ∈ x.parts →
      S.Keeps (.condition scope nested item))
    (eachQuery : ∀ q, .query q ∈ x.parts → S.Keeps (.query q)) (scope : Scope) (nested : Bool) :
    S.Keeps (.condition scope nested x) := by
  intro c c' beside
  show S.Writes c' x.nesting (x.render c scope nested) (x.render c' scope nested)
  cases x with
  | simple f op param => exact simple beside f op param
  | group op items =>
    simp only [Condition.nesting, conditionNesting_eq]
    obtain _ | ⟨only, _ | ⟨second, rest⟩⟩ := items
    · exact S.fail _ _ _ _
    · have single := eachItem only scope nested (by simp [Condition.parts]) c c' beside
      simpa [Node.render, Node.nesting, Condition.render] using single
    · simp only [Condition.render, renderItems_eq]
      exact group op nested fun item member =>
        eachItem item scope true (by simpa [Condition.parts] using member) c c' beside
  | fieldComparison left op right => exact fieldComparison beside left op right
  | subquery f op q =>
    exact subquery beside f op q.operation fun child child' entered =>
      eachQuery q (by simp [Condition.parts]) child child' entered
  | between f low high negated => exact between beside f low high negated
  | aggregate kind f op p => exact aggregateCondition beside scope kind f op p
  | expression e op p =>
    exact expressionCondition beside (eachExpr e (by simp [Condition.parts]) c c' beside) scope
      e.isAggregate op p

end Simulation

def Part.Kept (S : Simulation) : Part → Prop
  | .expr e => S.Keeps (.expr e)
  | .projected f => S.Keeps (.projected f)
  | .ordered o => S.Keeps (.ordered o)
  | .whenClause w => S.Keeps (.whenClause w)
  | .condition x => ∀ scope nested, S.Keeps (.condition scope nested x)
  | .join j => S.Keeps (.join j)
  | .assignment a => S.Keeps (.assigned a.value)
  | .query q => S.Keeps (.query q)
  | _ => True

theorem Part.kept (S : Simulation) : ∀ p : Part, p.Kept S := by
  refine Part.induction fun p below => ?_
  cases p with
  | expr e =>
    exact Simulation.keeps_expr (fun x member => below (.condition x) member .filter false)
      (fun w member => below (.whenClause w) member) fun o member => below (.ordered o) member
  | condition x =>
    exact Simulation.keeps_condition (fun e member => below (.expr e) member)
      (fun item scope nested member => below (.condition item) member scope nested)
      fun q member => below (.query q) member
  | query q =>
    have each (part : Part) (member : part ∈ q.parts) : part.Kept S := below part member
    exact Simulation.keeps_query
      (fun f member => each (.projected f) (by simp [Query.parts, member]))
      (fun j member => each (.join j) (by simp [Query.parts, member]))
      (fun x member => each (.condition x) (by simp [Query.parts, Option.mem_def.mp member]) _ _)
      (fun x member => each (.condition x) (by simp [Query.parts, Option.mem_def.mp member]) _ _)
      (fun o member => each (.ordered o) (by simp [Query.parts, member]))
      (fun a member => each (.assignment a) (by simp [Query.parts, member]))
  | projected f =>
    intro c c' beside
    exact Simulation.fieldExpr (below (.expr f.expr) (by simp [parts]) c c' beside) f.alias?
  | ordered o =>
    intro c c' beside
    exact Simulation.orderItem beside (below (.expr o.expr) (by simp [parts]) c c' beside)
      o.direction o.nulls
  | whenClause w =>
    intro c c' beside
    exact Simulation.whenClause beside
      (below (.condition w.condition) (by simp [parts]) .caseWhen false c c' beside) w.result
  | join j =>
    intro c c' beside
    exact Simulation.join beside j fun x member =>
      below (.condition x) (by simp [parts, Option.mem_def.mp member]) .joinOn false c c' beside
  | assignment a =>
    obtain ⟨target, value⟩ := a
    intro c c' beside
    cases value with
    | param p => exact S.param beside p
    | expr e =>
      exact Simulation.given fun _ _ => below (.expr e) (by simp [parts]) c c' beside
  | _ => trivial

namespace Simulation
variable (S : Simulation) {c c' : Context} (beside : S.Beside c c')
include beside

theorem compoundPart (part : CompoundPart) :
    S.Writes c' part.query.nesting (part.render c) (part.render c') := by
  simp only [CompoundPart.render, S.dialect_eq beside]
  refine given fun _ _ => ?_
  exact andThen ((Part.query part.query).kept S c c' beside) fun query => made (by simp)

theorem compound (compound : CompoundQuery) :
    S.Writes c' compound.nesting (compound.render c) (compound.render c') := by
  have base := (Part.query compound.base).kept S c c' beside
  have parts := all fun part (_ : part ∈ compound.parts) => S.compoundPart beside part
  have order := orderClause fun o (_ : o ∈ compound.orderBy) => (Part.ordered o).kept S c c' beside
  simp only [CompoundQuery.render, S.dialect_eq beside, renderOrder_eq]
  split
  · exact S.fail _ _ _ _
  · have nested : compound.nesting = max compound.base.nesting
        (max (deepest (compound.parts.map fun part => part.query.nesting))
          (deepest (compound.orderBy.map fun o => o.expr.nesting))) := by
      simp [CompoundQuery.nesting, CompoundQuery.operands, Function.comp_def]
    rw [nested]
    refine given fun _ _ => S.bind base fun first => S.bind parts fun further => ?_
    exact andThen order fun ordered => made (by simp)

theorem statement (s : Statement) : S.Writes c' s.nesting (s.render c) (s.render c') := by
  cases s with
  | query q => exact (Part.query q).kept S c c' beside
  | compound q => exact S.compound beside q

end Simulation

end TypedSql
