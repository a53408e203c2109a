import TypedSql.Proofs.Render.Statement
import TypedSql.Proofs.Tree.Uses

namespace TypedSql

def AssignValue.uses : AssignValue → Nat → List Hole
  | .param p, depth => usedAt depth [p]
  | .expr e, depth => e.uses depth

def Node.uses : Node → Nat → List Hole
  | .expr e, depth => e.uses depth
  | .projected f, depth => f.expr.uses depth
  | .ordered o, depth => o.expr.uses depth
  | .whenClause w, depth => w.condition.uses depth ++ usedAt depth [w.result]
  | .condition _ _ x, depth => x.uses depth
  | .join j, depth => optionalUses j.on depth
  | .assigned v, depth => v.uses depth
  | .query q, depth => q.uses depth

@[simp] theorem usedAt_nil (depth : Nat) : usedAt depth [] = [] := rfl

@[simp] theorem usedAt_cons (depth : Nat) (p : Param) (params : List Param) :
    usedAt depth (p :: params) = ⟨depth, p⟩ :: usedAt depth params := rfl

theorem usedAt_append (depth : Nat) (first rest : List Param) :
    usedAt depth (first ++ rest) = usedAt depth first ++ usedAt depth rest := List.map_append

theorem usedAt_flatMap {α : Type} (depth : Nat) (f : α → List Param) (xs : List α) :
    usedAt depth (xs.flatMap f) = xs.flatMap fun x => usedAt depth (f x) := List.map_flatMap

section Lists
variable (depth : Nat)

theorem conditionUses_eq (items : List Condition) (scope : Scope) (nested : Bool) :
    conditionUses items depth =
      items.flatMap fun x => (Node.condition scope nested x).uses depth := by
  induction items with
  | nil => rfl
  | cons x rest ih => rw [conditionUses, ih, List.flatMap_cons, Node.uses]

theorem whenUses_eq (whens : List WhenClause) :
    whenUses whens depth = whens.flatMap fun w => (Node.whenClause w).uses depth := by
  induction whens with
  | nil => rfl
  | cons w rest ih => obtain ⟨x, result⟩ := w; rw [whenUses, ih, List.flatMap_cons, Node.uses]

theorem orderUses_eq (items : List OrderBy) :
    orderUses items depth = items.flatMap fun o => (Node.ordered o).uses depth := by
  induction items with
  | nil => rfl
  | cons o rest ih =>
    obtain ⟨e, direction, nulls⟩ := o
    rw [orderUses, ih, List.flatMap_cons, Node.uses]

theorem projectedUses_eq (fields : List FieldExpr) :
    projectedUses fields depth = fields.flatMap fun f => (Node.projected f).uses depth := by
  induction fields with
  | nil => rfl
  | cons f rest ih => obtain ⟨e, output⟩ := f; rw [projectedUses, ih, List.flatMap_cons, Node.uses]

theorem joinUses_eq (joins : List Join) :
    joinUses joins depth = joins.flatMap fun j => (Node.join j).uses depth := by
  induction joins with
  | nil => rfl
  | cons j rest ih => obtain ⟨kind, table, on⟩ := j; rw [joinUses, ih, List.flatMap_cons, Node.uses]

theorem assignmentUses_eq (assignments : List Assignment) :
    assignmentUses assignments depth =
      assignments.map fun a => (a.field, (Node.assigned a.value).uses depth) := by
  induction assignments with
  | nil => rfl
  | cons a rest ih =>
    obtain ⟨target, value⟩ := a
    cases value <;> rw [assignmentUses, ih] <;> rfl

theorem optionalUses_eq (x : Option Condition) (scope : Scope) (nested : Bool) :
    optionalUses x depth = x.toList.flatMap fun x => (Node.condition scope nested x).uses depth := by
  cases x <;> simp [optionalUses, Node.uses]

end Lists

section Written
variable {α : Type} {f : α → List Hole} {pairs : List (α × Sql)}
  (each : ∀ p ∈ pairs, p.2.holes = f p.1)
include each

theorem flatMap_holes_eq :
    (pairs.map Prod.snd).flatMap Sql.holes = (pairs.map Prod.fst).flatMap f := by
  rw [List.flatMap_map, List.flatMap_map]
  exact List.flatMap_congr each

theorem holes_projection :
    (projection (pairs.map Prod.snd)).holes = (pairs.map Prod.fst).flatMap f := by
  rw [← flatMap_holes_eq each]
  cases pairs <;> simp [projection]

theorem holes_orderClause :
    (orderClause (pairs.map Prod.snd)).holes = (pairs.map Prod.fst).flatMap f := by
  rw [← flatMap_holes_eq each]
  cases pairs <;> simp [orderClause]

theorem holes_windowOrder :
    (windowOrder (pairs.map Prod.snd)).flatMap Sql.holes = (pairs.map Prod.fst).flatMap f := by
  rw [← flatMap_holes_eq each]
  cases pairs <;> simp [windowOrder]

omit each

theorem holes_conditional (keyword : String) {pair : Option (α × Sql)}
    (each : ∀ p ∈ pair, p.2.holes = f p.1) :
    (conditional keyword (pair.map Prod.snd)).holes = (pair.map Prod.fst).toList.flatMap f := by
  cases pair with
  | none => rfl
  | some p => simp [conditional, each p rfl]

end Written

theorem Context.depth_of_enter {c child : Context} (entered : c.enter = .ok child) :
    child.depth = c.depth + 1 := by
  unfold Context.enter at entered
  split at entered
  · simp only [Except.ok.injEq] at entered
    exact entered ▸ rfl
  · cases entered

theorem Operand.holes_eq {o : Operand} {c : Context} {s : Sql} (made : (o.render c).result = .ok s) :
    s.holes = usedAt c.depth o.params := by
  cases o with
  | field f => exact Field.holes_of_render made
  | param p =>
    obtain ⟨-, rfl⟩ := Context.param_ok_iff.mp made
    rfl

theorem holes_tuple (c : Context) (row : Row) : (tuple c row).holes = usedAt c.depth row.values := by
  unfold tuple
  generalize row.values = values
  induction values with
  | nil => rfl
  | cons p rest ih =>
    simp only [Sql.holes_parenthesised, Sql.holes_commaList, List.map_cons, List.flatMap_cons] at ih ⊢
    rw [ih]
    rfl

theorem holes_conflictSets (c : Context) (rejected : String → Sql)
    (silent : ∀ column, (rejected column).holes = []) (updates : NameMap ConflictValue) :
    (conflictSets c rejected updates).holes =
      usedAt c.depth (updates.values.flatMap ConflictValue.params) := by
  simp only [conflictSets, Sql.holes_commaList, List.flatMap_map, usedAt_flatMap, NameMap.values]
  refine List.flatMap_congr fun update _ => ?_
  obtain ⟨column, value⟩ := update
  cases value with
  | param p => rfl
  | excluded => exact silent column

theorem Upserts.holes_eq {c : Context} {conflict : Option OnConflict} {s : Sql}
    (upserts : Upserts c conflict s) :
    s.holes = usedAt c.depth (conflict.elim [] OnConflict.params) := by
  cases upserts with
  | none => rfl
  | ignore => rfl
  | skip targeted written => simp [holes_target written, OnConflict.params]
  | update targeted written =>
    simp [holes_target written, holes_conflictSets c excludedColumn fun _ => rfl]
    rfl
  | duplicate =>
    simp [holes_conflictSets c valuesColumn fun _ => rfl]
    rfl

theorem WindowCall.Calls.holes_eq {c : Context} {w : WindowCall} {call : Sql}
    (calls : w.Calls c call) :
    call.holes = usedAt c.depth (w.bucket.toList ++ w.offset.toList ++ w.fallback.toList) := by
  cases calls with
  | ranking checked ranks bare =>
    obtain ⟨tiled, shifted⟩ := WindowCall.absent_of_checkOperands checked
    rcases ranks with ranks | ranks | ranks <;>
      simp [tiled, shifted, WindowCall.IsShift, ranks]
  | ntile checked tiles bare given styled =>
    obtain ⟨-, shifted⟩ := WindowCall.absent_of_checkOperands checked
    simp [shifted, WindowCall.IsShift, tiles, given]
  | shift checked shifted given columned styled =>
    obtain ⟨tiled, -⟩ := WindowCall.absent_of_checkOperands checked
    have bucket : w.bucket = none := by
      rcases shifted with shifted | shifted <;> exact tiled (by simp [shifted])
    have silent := Field.holes_of_render columned
    unfold WindowCall.shifts
    cases w.offset <;> cases w.fallback <;> simp [bucket, silent]
  | edge checked edged given columned =>
    obtain ⟨tiled, shifted⟩ := WindowCall.absent_of_checkOperands checked
    have silent := Field.holes_of_render columned
    rcases edged with edged | edged <;> simp [tiled, shifted, WindowCall.IsShift, edged, silent]
  | aggregate checked aggregates columned =>
    obtain ⟨tiled, shifted⟩ := WindowCall.absent_of_checkOperands checked
    simp [tiled, shifted, WindowCall.IsShift, aggregates, holes_aggregateField columned]

theorem holes_assignments {α : Type} (target : α → Field) {f : α → List Hole}
    {pairs : List (α × Sql)} (each : ∀ p ∈ pairs, p.2.holes = f p.1) :
    (Sql.commaList ((sortAssignments (pairs.map fun p => (target p.1, p.2))).map
        assignmentSql)).holes =
      (sortAssignments ((pairs.map Prod.fst).map fun x => (target x, f x))).flatMap Prod.snd := by
  rw [sortAssignments_snd, sortAssignments_fst, Sql.holes_commaList, List.map_map,
    List.flatMap_map, List.flatMap_map]
  refine List.flatMap_congr fun b member => ?_
  obtain ⟨p, inside, rfl⟩ := List.mem_map.mp (mem_sortAssignments.mp member)
  exact each p inside

theorem Query.uses_eq (q : Query) (depth : Nat) :
    q.uses depth =
      (q.fields.flatMap fun f => (Node.projected f).uses depth) ++
        usedAt depth (q.rows.flatMap NameMap.values) ++
        (sortAssignments (q.assignments.map fun a =>
          (a.field, (Node.assigned a.value).uses depth))).flatMap Prod.snd ++
        (q.joins.flatMap fun j => (Node.join j).uses depth) ++
        (q.filter.toList.flatMap fun x => (Node.condition .whereClause false x).uses depth) ++
        (q.having.toList.flatMap fun x => (Node.condition .having false x).uses depth) ++
        (q.orderBy.flatMap fun o => (Node.ordered o).uses depth) ++
        usedAt depth (q.onConflict.elim [] OnConflict.params) := by
  cases q
  rw [Query.uses, projectedUses_eq, assignmentUses_eq, joinUses_eq,
    optionalUses_eq _ _ .whereClause false, optionalUses_eq _ _ .having false, orderUses_eq]

section Queries
variable {c : Context} {q : Query} {fields : List (FieldExpr × Sql)} {joins : List (Join × Sql)}
  {filter having : Option (Condition × Sql)} {items : List (OrderBy × Sql)}
  {sets : List (Assignment × Sql)} {output returning : Sql}

theorem Query.holes_select {distinct groupBy : Sql} {lock : Sql × Sql}
    (operation : q.operation = .select) (clauses : q.checkClauses = .ok ())
    (distinctly : renderDistinct c.dialect q.distinct q.distinctOn = .ok distinct)
    (fieldsListed : q.fields = fields.map Prod.fst)
    (projects : ∀ f ∈ fields, f.2.holes = (Node.projected f.1).uses c.depth)
    (locks : renderLock c.dialect q.lock = .ok lock)
    (joinsListed : q.joins = joins.map Prod.fst)
    (joined : ∀ j ∈ joins, j.2.holes = (Node.join j.1).uses c.depth)
    (filterGiven : q.filter = filter.map Prod.fst)
    (filters : ∀ x ∈ filter, x.2.holes = (Node.condition .whereClause false x.1).uses c.depth)
    (groups : renderGroupBy c.dialect q.groupBy = .ok groupBy)
    (havingGiven : q.having = having.map Prod.fst)
    (havings : ∀ x ∈ having, x.2.holes = (Node.condition .having false x.1).uses c.depth)
    (itemsListed : q.orderBy = items.map Prod.fst)
    (order : ∀ o ∈ items, o.2.holes = (Node.ordered o.1).uses c.depth) :
    (q.selectText c distinct (fields.map Prod.snd) lock (joins.map Prod.snd)
        (filter.map Prod.snd) groupBy (having.map Prod.snd) (items.map Prod.snd)).holes =
      (Node.query q).uses c.depth := by
  -- a clause that the operation has no place for is empty and holds no parameters
  obtain ⟨rows, sets, -, conflict⟩ := Query.reads_only clauses (.inl operation)
  have fieldUses := holes_projection (f := fun f => (Node.projected f).uses c.depth) projects
  have joinUses := flatMap_holes_eq (f := fun j => (Node.join j).uses c.depth) joined
  have orderUses := holes_orderClause (f := fun o => (Node.ordered o).uses c.depth) order
  have filterUses := holes_conditional "WHERE"
    (f := fun x => (Node.condition .whereClause false x).uses c.depth) filters
  have havingUses := holes_conditional "HAVING"
    (f := fun x => (Node.condition .having false x).uses c.depth) havings
  simp only [selectText, Sql.holes_append, Sql.holes_sql, Sql.holes_flatten, Table.holes_render,
    fieldUses, joinUses, orderUses, filterUses, havingUses, holes_distinct distinctly,
    holes_lock locks, holes_groupBy groups, ← fieldsListed, ← joinsListed, ← itemsListed,
    ← filterGiven, ← havingGiven]
  rw [Node.uses, Query.uses_eq, rows, sets, conflict]
  simp [sortAssignments]

theorem Query.holes_count (operation : q.operation = .count) (clauses : q.checkClauses = .ok ())
    (joinsListed : q.joins = joins.map Prod.fst)
    (joined : ∀ j ∈ joins, j.2.holes = (Node.join j.1).uses c.depth)
    (filterGiven : q.filter = filter.map Prod.fst)
    (filters : ∀ x ∈ filter, x.2.holes = (Node.condition .whereClause false x.1).uses c.depth) :
    (q.countText (joins.map Prod.snd) (filter.map Prod.snd)).holes =
      (Node.query q).uses c.depth := by
  obtain ⟨rows, sets, -, conflict⟩ := Query.reads_only clauses (.inr operation)
  obtain ⟨-, fields, -, having, orderBy⟩ := Query.selects_nothing clauses (by simp [operation])
  have joinUses := flatMap_holes_eq (f := fun j => (Node.join j).uses c.depth) joined
  have filterUses := holes_conditional "WHERE"
    (f := fun x => (Node.condition .whereClause false x).uses c.depth) filters
  simp only [countText, Sql.holes_append, Sql.holes_sql, Sql.holes_flatten, Table.holes_render,
    joinUses, filterUses, ← joinsListed, ← filterGiven]
  rw [Node.uses, Query.uses_eq, rows, sets, conflict, fields, having, orderBy]
  simp [sortAssignments]

theorem Query.holes_insert {first : Row} {upsert : Sql} (operation : q.operation = .insert)
    (clauses : q.checkClauses = .ok ())
    (outputs : renderOutput c.dialect .inserted q.returning = .ok output)
    (upserts : Upserts c q.onConflict upsert)
    (returns : renderReturning c.dialect q.returning = .ok returning) :
    (q.insertText c first output upsert returning).holes = (Node.query q).uses c.depth := by
  obtain ⟨filter, sets⟩ := Query.inserts_only clauses operation
  obtain ⟨-, fields, -, having, orderBy⟩ := Query.selects_nothing clauses (by simp [operation])
  obtain ⟨joins, -⟩ := Query.joins_nothing clauses (by simp [operation]) (by simp [operation])
  have columns : (Sql.commaList (first.names.map fun column => [.name .field column])).holes =
      [] := by
    simp [List.flatMap_map]
  simp only [insertText, Sql.holes_append, Sql.holes_sql, Table.holes_render, columns,
    holes_output outputs, Sql.holes_commaList, List.flatMap_map, holes_tuple, upserts.holes_eq,
    holes_returning returns]
  rw [Node.uses, Query.uses_eq, filter, sets, fields, having, orderBy, joins, usedAt_flatMap]
  simp [sortAssignments]

theorem Query.holes_update (operation : q.operation = .update) (clauses : q.checkClauses = .ok ())
    (setsListed : q.assignments = sets.map Prod.fst)
    (values : ∀ a ∈ sets, a.2.holes = (Node.assigned a.1.value).uses c.depth)
    (outputs : renderOutput c.dialect .inserted q.returning = .ok output)
    (filterGiven : q.filter = filter.map Prod.fst)
    (filters : ∀ x ∈ filter, x.2.holes = (Node.condition .whereClause false x.1).uses c.depth)
    (returns : renderReturning c.dialect q.returning = .ok returning) :
    (q.updateText (sets.map fun a => (a.1.field, a.2)) output (filter.map Prod.snd)
        returning).holes = (Node.query q).uses c.depth := by
  obtain ⟨rows, conflict⟩ := Query.inserts_nothing clauses (.inl operation)
  obtain ⟨-, fields, -, having, orderBy⟩ := Query.selects_nothing clauses (by simp [operation])
  obtain ⟨joins, -⟩ := Query.joins_nothing clauses (by simp [operation]) (by simp [operation])
  have setUses := holes_assignments Assignment.field
    (f := fun a => (Node.assigned a.value).uses c.depth) values
  have filterUses := holes_conditional "WHERE"
    (f := fun x => (Node.condition .whereClause false x).uses c.depth) filters
  simp only [updateText, Sql.holes_append, Sql.holes_sql, Table.holes_render, setUses, filterUses,
    holes_output outputs, holes_returning returns, ← setsListed, ← filterGiven]
  rw [Node.uses, Query.uses_eq, rows, conflict, fields, having, orderBy, joins]
  simp

theorem Query.holes_delete (operation : q.operation = .delete) (clauses : q.checkClauses = .ok ())
    (outputs : renderOutput c.dialect .deleted q.returning = .ok output)
    (filterGiven : q.filter = filter.map Prod.fst)
    (filters : ∀ x ∈ filter, x.2.holes = (Node.condition .whereClause false x.1).uses c.depth)
    (returns : renderReturning c.dialect q.returning = .ok returning) :
    (q.deleteText output (filter.map Prod.snd) returning).holes = (Node.query q).uses c.depth := by
  obtain ⟨rows, conflict⟩ := Query.inserts_nothing clauses (.inr operation)
  obtain ⟨-, fields, -, having, orderBy⟩ := Query.selects_nothing clauses (by simp [operation])
  obtain ⟨joins, -⟩ := Query.joins_nothing clauses (by simp [operation]) (by simp [operation])
  have sets := Query.assigns_nothing clauses operation
  have filterUses := holes_conditional "WHERE"
    (f := fun x => (Node.condition .whereClause false x).uses c.depth) filters
  simp only [deleteText, Sql.holes_append, Sql.holes_sql, Table.holes_render, filterUses,
    holes_output outputs, holes_returning returns, ← filterGiven]
  rw [Node.uses, Query.uses_eq, rows, conflict, fields, having, orderBy, joins, sets]
  simp [sortAssignments]

end Queries

theorem Renders.holes_eq {c : Context} {n : Node} {s : Sql} (made : Renders c n s) :
    s.holes = n.uses c.depth := by
  induction made with
  | field columned => exact Field.holes_of_render columned
  | aggregate columned => simp [Node.uses, Expr.uses, optionalUses, holes_aggregateField columned]
  | filtered columned native _ ih =>
    simp [Node.uses, Expr.uses, optionalUses, holes_aggregateField columned, ih]
  | chosen columned rewritten _ ih =>
    simp [Node.uses, Expr.uses, optionalUses, holes_aggregateField columned, ih]
  | @case c whens branched _ ih =>
    have each := flatMap_holes_eq (f := fun w => (Node.whenClause w).uses c.depth) ih
    simp only [Sql.holes_append, Sql.holes_sql, Sql.holes_flatten, each, List.nil_append,
      List.append_nil]
    simp [Node.uses, Expr.uses, whenUses_eq]
  | @caseElse c whens otherwise branched _ styled ih =>
    have each := flatMap_holes_eq (f := fun w => (Node.whenClause w).uses c.depth) ih
    simp only [Sql.holes_append, Sql.holes_sql, Sql.holes_flatten, each, List.nil_append,
      List.append_nil]
    simp [Node.uses, Expr.uses, whenUses_eq]
  | @coalesce c operands several rendered =>
    have each := flatMap_holes_eq (f := fun o => usedAt c.depth (Operand.params o))
      fun o member => Operand.holes_eq (rendered o member)
    simp only [Sql.holes_append, Sql.holes_sql, Sql.holes_commaList, each, List.nil_append,
      List.append_nil, Node.uses, Expr.uses, usedAt_flatMap]
  | nullIf first second =>
    simp [Node.uses, Expr.uses, usedAt_append, Operand.holes_eq first, Operand.holes_eq second]
  | @math c call column columned argument =>
    simp [Node.uses, Expr.uses, holes_mathCall_none, Field.holes_of_render columned,
      MathCall.argument_eq argument]
  | @mathWith c call column p columned argument styled =>
    simp [Node.uses, Expr.uses, holes_mathCall argument, Field.holes_of_render columned,
      MathCall.argument_eq argument]
  | cast columned typed => simp [Node.uses, Expr.uses, Field.holes_of_render columned]
  | @window c w call partitioned framed items called partition listed order frame ih =>
    obtain ⟨function, f, bucket, offset, fallback, ⟨partitionBy, orderBy, _⟩⟩ := w
    have each := holes_windowOrder (f := fun o => (Node.ordered o).uses c.depth) ih
    simp only [Sql.holes_append, Sql.holes_sql, Sql.holes_join, List.flatMap_append, each,
      holes_partition partition, holes_frame frame, called.holes_eq, List.nil_append,
      List.append_nil, ← listed]
    simp only [Node.uses, Expr.uses, orderUses_eq]
  | binary columned styled joined =>
    simp [Node.uses, Expr.uses, holes_binary joined, Field.holes_of_render columned]
  | projected _ ih => exact ih
  | aliased _ ih => simp [Node.uses] at ih ⊢; exact ih
  | ordered _ ih => simp [Node.uses] at ih ⊢; exact ih
  | orderedNulls _ supported ih => simp [Node.uses] at ih ⊢; exact ih
  | whenClause _ styled ih => simp [Node.uses] at ih ⊢; exact ih
  | null columned unary => simp [Node.uses, Condition.uses, Field.holes_of_render columned]
  | simple columned binary takes styled =>
    simp [Node.uses, Condition.uses, Field.holes_of_render columned]
  | only _ ih => simpa [Node.uses, Condition.uses, conditionUses] using ih
  | @group c scope nested op items several _ ih =>
    have each := flatMap_holes_eq (f := fun x => (Node.condition scope true x).uses c.depth) ih
    have joined : Sql.holes (Sql.join (" " ++ op.keyword ++ " ") (items.map Prod.snd)) =
        (Node.condition scope nested (.group op (items.map Prod.fst))).uses c.depth := by
      rw [Sql.holes_join, each, Node.uses, Condition.uses, conditionUses_eq _ _ scope true]
    cases nested <;> simp only [↓reduceIte, Bool.false_eq_true, Sql.holes_parenthesised, joined]
  | fieldComparison comparing first second =>
    simp [Node.uses, Condition.uses, Field.holes_of_render first, Field.holes_of_render second]
  | subquery started reading entered _ ih =>
    have deeper := Context.depth_of_enter entered
    simp [Node.uses, Condition.uses, holes_subqueryLeft started, ih, deeper]
  | between columned styled => simp [Node.uses, Condition.uses, Field.holes_of_render columned]
  | aggregateCondition comparing columned styled =>
    simp [Node.uses, Condition.uses, holes_aggregateField columned]
  | expression comparing placed _ styled ih => simp [Node.uses, Condition.uses, ih]
  | crossJoin formed supported => simp [Node.uses, optionalUses]
  | join formed supported _ ih => simp [Node.uses, optionalUses, ih]
  | assignedParam styled => rfl
  | assignedExpr admitted _ ih => exact ih
  | select operation clauses _ distinctly fieldsListed _ locks joinsListed _ filterGiven _ groups
      havingGiven _ itemsListed _ projects joined filters havings order =>
    exact Query.holes_select operation clauses distinctly fieldsListed projects locks joinsListed
      joined filterGiven filters groups havingGiven havings itemsListed order
  | count operation clauses joinsListed _ filterGiven _ joined filters =>
    exact Query.holes_count operation clauses joinsListed joined filterGiven filters
  | insert operation clauses _ _ outputs upserts returns =>
    exact Query.holes_insert operation clauses outputs upserts returns
  | update operation clauses _ setsListed _ _ _ outputs filterGiven _ returns values filters =>
    exact Query.holes_update operation clauses setsListed values outputs filterGiven filters returns
  | delete operation clauses outputs filterGiven _ returns filters =>
    exact Query.holes_delete operation clauses outputs filterGiven filters returns

/-- The placeholders of a statement are the parameters of its tree. -/
theorem Statement.Renders.holes_eq {c : Context} {statement : Statement} {s : Sql}
    (made : statement.Renders c s) (outermost : c.depth = 0) : s.holes = statement.uses := by
  cases made with
  | query made => rw [made.holes_eq, outermost]; rfl
  | @compound q base parts items several operands first partsListed supported more itemsListed
      order =>
    have further : (parts.map furtherOperand).flatMap Sql.holes =
        (parts.map Prod.fst).flatMap fun part => part.query.uses c.depth := by
      rw [List.flatMap_map, List.flatMap_map]
      exact List.flatMap_congr fun p member => (more p member).holes_eq
    have sorted := holes_orderClause (f := fun o => (Node.ordered o).uses c.depth)
      fun o member => (order o member).holes_eq
    simp only [Sql.holes_append, Sql.holes_flatten, Sql.holes_sql, further, sorted, first.holes_eq,
      ← partsListed, ← itemsListed, outermost]
    simp only [Statement.uses, CompoundQuery.uses, CompoundQuery.operands, orderUses_eq,
      List.flatMap_cons, List.flatMap_map, List.append_nil]
    rfl

end TypedSql
