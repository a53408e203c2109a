import TypedSql.Proofs.Render.Clause

namespace TypedSql

@[simp] theorem Field.holes_column (f : Field) : f.column.holes = [] := by
  obtain ⟨name, qualifier, path⟩ := f
  rcases qualifier with _ | _ | _ <;> rfl

@[simp] theorem Context.holes_placeholder (c : Context) (p : Param) :
    (c.placeholder p).holes = [⟨c.depth, p⟩] := rfl

@[simp] theorem Sql.holes_nil : Sql.holes [] = [] := rfl

@[simp] theorem Sql.holes_text_cons (t : String) (s : Sql) :
    Sql.holes (.text t :: s) = s.holes := rfl

@[simp] theorem Sql.holes_name_cons (kind : NameKind) (n : String) (s : Sql) :
    Sql.holes (.name kind n :: s) = s.holes := rfl

@[simp] theorem Sql.holes_append (s t : Sql) : (s ++ t).holes = s.holes ++ t.holes :=
  List.filterMap_append

@[simp] theorem Sql.holes_sql (t : String) : (sql t).holes = [] := rfl

@[simp] theorem Sql.holes_commaList (parts : List Sql) :
    (Sql.commaList parts).holes = parts.flatMap Sql.holes := filterMap_commaList parts

@[simp] theorem Sql.holes_join (separator : String) (parts : List Sql) :
    (Sql.join separator parts).holes = parts.flatMap Sql.holes := filterMap_join separator parts

@[simp] theorem Sql.holes_parenthesised (s : Sql) : (Sql.parenthesised s).holes = s.holes :=
  filterMap_parenthesised s

@[simp] theorem holes_compareSides (d : Dialect) (left right : Sql) (op : Operator) :
    (compareSides d left op right).holes = left.holes ++ right.holes :=
  filterMap_compareSides d left right op

@[simp] theorem Sql.holes_flatten (parts : List Sql) :
    Sql.holes parts.flatten = parts.flatMap Sql.holes := by
  rw [Sql.holes, List.filterMap_flatten, List.flatMap_def]
  rfl

@[simp] theorem Table.holes_render (t : Table) : t.render.holes = [] := by
  rw [Sql.holes, filterMap_tableRender]
  rfl

theorem Field.holes_of_render {f : Field} {d : Dialect} {s : Sql} (made : f.render d = .ok s) :
    s.holes = [] := by
  rw [Sql.holes, filterMap_field made]
  exact f.holes_column

theorem Field.holes_flatMap (fields : List Field) :
    (fields.flatMap fun f => f.column.filterMap Piece.hole?) = [] := by
  induction fields with
  | nil => rfl
  | cons f rest ih => rw [List.flatMap_cons, ih, List.append_nil]; exact f.holes_column

section Silent
variable {d : Dialect}

theorem holes_output {source : OutputSource} {returning : List Field} {s : Sql}
    (made : renderOutput d source returning = .ok s) : s.holes = [] := by
  rw [Sql.holes, filterMap_output made, Field.holes_flatMap]
  exact ite_self []

theorem holes_returning {returning : List Field} {s : Sql}
    (made : renderReturning d returning = .ok s) : s.holes = [] := by
  rw [Sql.holes, filterMap_returning made, Field.holes_flatMap]
  exact ite_self []

theorem holes_aggregateField {kind : AggregateKind} {f : Option Field} {missing : Missing}
    {column : Option Sql} (made : aggregateField d kind f missing = .ok column) (t : String) :
    (column.getD (sql t)).holes = [] := by
  rw [Sql.holes, filterMap_aggregateField made, Field.holes_flatMap]

theorem holes_distinct {distinct : Bool} {on : List Field} {s : Sql}
    (made : renderDistinct d distinct on = .ok s) : s.holes = [] := by
  rcases renderDistinct_ok made with ⟨-, rfl⟩ | ⟨-, -, rfl⟩ | ⟨-, -, fields, rendered, rfl⟩
  · rfl
  · rfl
  · have silent : fields.holes = [] := by
      rw [Sql.holes, filterMap_fields rendered, Field.holes_flatMap]
    simp [silent]

theorem holes_groupBy {groupBy : List Field} {s : Sql} (made : renderGroupBy d groupBy = .ok s) :
    s.holes = [] := by
  rw [Sql.holes, filterMap_groupBy made, Field.holes_flatMap]

theorem holes_subqueryLeft {c : Context} {f : Option Field} {op : Operator} {s : Sql}
    (made : subqueryLeft c f op = .ok s) : s.holes = [] := by
  rw [Sql.holes, filterMap_subqueryLeft made, Field.holes_flatMap]

theorem holes_lock {lock : Option RowLock} {written : Sql × Sql}
    (made : renderLock d lock = .ok written) : written.1.holes = [] ∧ written.2.holes = [] :=
  filterMap_lock made

theorem holes_target {target : List Field} {s : Sql} (made : renderTarget target = .ok s) :
    s.holes = [] := by
  rw [Sql.holes, filterMap_target made, Field.holes_flatMap]

theorem holes_partition {partitionBy : List Field} {parts : List Sql}
    (made : WindowCall.partitionParts d partitionBy = .ok parts) : parts.flatMap Sql.holes = [] :=
  (filterMap_partition made).trans (Field.holes_flatMap partitionBy)

theorem holes_frame {frame : Option Frame} {parts : List Sql}
    (made : WindowCall.frameParts frame = .ok parts) : parts.flatMap Sql.holes = [] :=
  filterMap_frame made

theorem holes_binary {left right s : Sql} {op : BinaryOp} (made : d.binary left op right = .ok s) :
    s.holes = left.holes ++ right.holes := filterMap_binary d left right made

theorem holes_mathCall {call : MathCall} {p : Param} (given : call.argument? = .ok (some p))
    (left right : Sql) :
    (d.mathCall call.function left (some right)).holes = left.holes ++ right.holes :=
  filterMap_mathCall_some d left right (MathCall.function_of_argument given)

theorem holes_mathCall_none (left : Sql) (function : MathFunction) :
    (d.mathCall function left none).holes = left.holes := filterMap_mathCall_none d left function

end Silent

section Steps
variable {c : Context}

theorem Context.param_eq (styled : c.HasPlaceholders) (p : Param) :
    c.param p = ⟨(c.placeholder p).holes, .ok (c.placeholder p)⟩ := by
  have made : (c.param p).result = .ok (c.placeholder p) := Context.param_ok_iff.mpr ⟨styled, rfl⟩
  rw [← made]
  rfl

theorem Operand.render_eq {o : Operand} {s : Sql} (made : (o.render c).result = .ok s) :
    o.render c = ⟨s.holes, .ok s⟩ := by
  cases o with
  | field f =>
    have columned : f.render c.dialect = .ok s := made
    simp only [Operand.render, Render.ofExcept, columned, Field.holes_of_render columned]
  | param p =>
    obtain ⟨styled, rfl⟩ := Context.param_ok_iff.mp made
    exact Context.param_eq styled p

theorem Render.all_map_eq {α : Type} {f : α → Render Sql} {g : α → Sql} {xs : List α}
    (each : ∀ x ∈ xs, f x = ⟨(g x).holes, .ok (g x)⟩) :
    Render.all (xs.map f) = ⟨(xs.map g).flatMap Sql.holes, .ok (xs.map g)⟩ := by
  have pairs : ∀ p ∈ xs.map fun x => (x, g x), f p.1 = ⟨p.2.holes, .ok p.2⟩ := by simpa using each
  simpa [Function.comp_def] using Render.all_of_pairs pairs

theorem renderTuple_eq (styled : c.HasPlaceholders) (row : Row) :
    renderTuple c row = ⟨(tuple c row).holes, .ok (tuple c row)⟩ := by
  rw [renderTuple, Render.all_map_eq fun p _ => Context.param_eq styled p]
  simp [tuple, Sql.parenthesised, Render.pure_eq]

theorem renderConflictSets_eq (rejected : String → Sql)
    (silent : ∀ column, (rejected column).holes = []) {updates : NameMap ConflictValue}
    (styled : ∀ u ∈ updates.entries, u.2.Styled c) :
    renderConflictSets c rejected updates =
      ⟨(conflictSets c rejected updates).holes, .ok (conflictSets c rejected updates)⟩ := by
  have each : ∀ u ∈ updates.entries, renderConflictSet c rejected u =
      ⟨(conflictSetSql c rejected u).holes, .ok (conflictSetSql c rejected u)⟩ := by
    intro ⟨column, value⟩ member
    cases value with
    | param p =>
      simp only [renderConflictSet, Context.param_eq (styled _ member p rfl), Render.mk_ok_bind]
      rfl
    | excluded =>
      simp only [renderConflictSet, conflictSetSql, Sql.holes_append, silent]
      rfl
  rw [renderConflictSets, Render.all_map_eq each]
  simp [conflictSets, Render.pure_eq]

theorem Upserts.render_eq {conflict : Option OnConflict} {s : Sql}
    (upserts : Upserts c conflict s) : renderUpsert c conflict = ⟨s.holes, .ok s⟩ := by
  cases upserts with
  | none => rfl
  | skip targeted written =>
    simp [renderUpsert, targeted, renderOnConflict, written, Render.pure_eq, holes_target written]
  | update targeted written aimed full styled =>
    have sets := renderConflictSets_eq excludedColumn (fun _ => rfl) styled
    unfold excludedColumn at sets
    simp [renderUpsert, targeted, renderOnConflict, written, Render.pure_eq, aimed, full, sets,
      holes_target written]
    exact ⟨rfl, rfl⟩
  | ignore keyed => simp [renderUpsert, keyed, renderOnDuplicateKey, Render.pure_eq]
  | duplicate keyed full styled =>
    have sets := renderConflictSets_eq valuesColumn (fun _ => rfl) styled
    unfold valuesColumn at sets
    simp [renderUpsert, keyed, renderOnDuplicateKey, full, Render.pure_eq, sets]
    exact ⟨rfl, rfl⟩

end Steps

section Clauses
variable {α : Type} {f : α → Render Sql} {pairs : List (α × Sql)}
  (each : ∀ p ∈ pairs, f p.1 = ⟨p.2.holes, .ok p.2⟩)
include each

theorem renderJoins_eq :
    renderJoins ((pairs.map Prod.fst).map f) =
      ⟨Sql.holes (pairs.map Prod.snd).flatten, .ok (pairs.map Prod.snd).flatten⟩ := by
  rw [renderJoins, Render.all_of_pairs each]
  simp [Render.pure_eq]

theorem renderProjection_eq :
    renderProjection ((pairs.map Prod.fst).map f) =
      ⟨(projection (pairs.map Prod.snd)).holes, .ok (projection (pairs.map Prod.snd))⟩ := by
  rw [renderProjection, Render.all_of_pairs each]
  cases pairs <;> simp [projection, Render.pure_eq]

theorem renderOrderClause_eq :
    renderOrderClause ((pairs.map Prod.fst).map f) =
      ⟨(orderClause (pairs.map Prod.snd)).holes, .ok (orderClause (pairs.map Prod.snd))⟩ := by
  rw [renderOrderClause, Render.all_of_pairs each]
  cases pairs <;> simp [orderClause, Render.pure_eq]

theorem WindowCall.orderParts_eq :
    WindowCall.orderParts ((pairs.map Prod.fst).map f) =
      ⟨(windowOrder (pairs.map Prod.snd)).flatMap Sql.holes,
        .ok (windowOrder (pairs.map Prod.snd))⟩ := by
  rw [WindowCall.orderParts, Render.all_of_pairs each]
  cases pairs <;> simp [windowOrder, Render.pure_eq]

omit each

theorem renderConditional_eq (keyword : String) {pair : Option (α × Sql)}
    (each : ∀ p ∈ pair, f p.1 = ⟨p.2.holes, .ok p.2⟩) :
    renderConditional keyword ((pair.map Prod.fst).map f) =
      ⟨(conditional keyword (pair.map Prod.snd)).holes,
        .ok (conditional keyword (pair.map Prod.snd))⟩ := by
  cases pair with
  | none => rfl
  | some p => simp [renderConditional, conditional, each p rfl, Render.pure_eq]

theorem renderAssignments_of_pairs (target : α → Field)
    (each : ∀ p ∈ pairs, f p.1 = ⟨p.2.holes, .ok p.2⟩)
    (plain : ∀ p ∈ pairs, (target p.1).isPlain = true)
    (unrepeated : repeatedNeighbour? (sortAssignments (pairs.map fun p => (target p.1, p.2))) = none) :
    renderAssignments ((pairs.map Prod.fst).map fun x => (target x, f x)) =
      ⟨(Sql.commaList ((sortAssignments (pairs.map fun p => (target p.1, p.2))).map
          assignmentSql)).holes,
        .ok (Sql.commaList ((sortAssignments (pairs.map fun p => (target p.1, p.2))).map
          assignmentSql))⟩ := by
  rw [sortAssignments_snd, repeatedNeighbour?_map] at unrepeated
  have made : ∀ b ∈ sortAssignments (pairs.map fun p => (target p.1, p)),
      renderAssignment (b.1, f b.2.1) =
        ⟨(assignmentSql (b.1, b.2.2)).holes, .ok (assignmentSql (b.1, b.2.2))⟩ := by
    intro b member
    obtain ⟨p, inside, rfl⟩ := List.mem_map.mp (mem_sortAssignments.mp member)
    simp only [renderAssignment, plain p inside, each p inside, ↓reduceIte, Render.mk_ok_bind]
    simp only [Render.pure_eq, List.append_nil]
    rfl
  rw [renderAssignments_eq, sortAssignments_fst, sortAssignments_snd, List.map_map, List.map_map]
  · have all := Render.all_map_eq made
    simp only [Function.comp_def, Prod.map, id_eq] at all ⊢
    rw [all]
    simp [Render.pure_eq]
  · rw [sortAssignments_fst, repeatedNeighbour?_map]
    exact unrepeated

end Clauses

theorem WindowCall.shiftArguments_eq {c : Context} {w : WindowCall} (column : Sql)
    (styled : w.shifts c ≠ [] → c.HasPlaceholders) :
    w.shiftArguments c column = ⟨(w.shifts c).flatMap Sql.holes, .ok (column :: w.shifts c)⟩ := by
  unfold WindowCall.shifts at styled
  unfold WindowCall.shiftArguments WindowCall.shifts
  cases offset : w.offset <;> cases fallback : w.fallback <;> simp only [offset, fallback] at styled
  · rfl
  all_goals
    simp [Context.param_eq (styled (by simp)), Render.pure_eq]

theorem WindowCall.Calls.render_eq {c : Context} {w : WindowCall} {call : Sql}
    (calls : w.Calls c call) : w.renderCall c = ⟨call.holes, .ok call⟩ := by
  unfold WindowCall.renderCall
  cases calls with
  | ranking checked ranks bare =>
    rcases ranks with ranks | ranks | ranks <;> simp [checked, ranks, bare, Render.pure_eq]
  | ntile checked tiles bare given styled =>
    simp [checked, tiles, bare, given, Context.param_eq styled, Render.pure_eq]
  | shift checked shifted given columned styled =>
    have silent := Field.holes_of_render columned
    have arguments column := WindowCall.shiftArguments_eq column styled
    rcases shifted with shifted | shifted <;>
      simp [checked, shifted, given, renderRequired, columned, arguments, silent, Render.pure_eq]
  | edge checked edged given columned =>
    rcases edged with edged | edged <;>
      simp [checked, edged, given, renderRequired, columned, Field.holes_of_render columned,
        Render.pure_eq]
  | aggregate checked aggregates columned =>
    simp [checked, aggregates, columned, Render.pure_eq, holes_aggregateField columned]

theorem WindowCall.render_of_parts {c : Context} {w : WindowCall} {call s : Sql}
    {partitioned framed : List Sql} {items : List (OrderBy × Sql)} (called : w.Calls c call)
    (partition : WindowCall.partitionParts c.dialect w.window.partitionBy = .ok partitioned)
    (listed : w.window.orderBy = items.map Prod.fst)
    (order : ∀ o ∈ items, (Node.ordered o.1).render c = ⟨o.2.holes, .ok o.2⟩)
    (frame : WindowCall.frameParts w.window.frame = .ok framed)
    (spelled : s = call ++ sql " OVER (" ++
      Sql.join " " (partitioned ++ windowOrder (items.map Prod.snd) ++ framed) ++ sql ")") :
    (Expr.window w).render c = ⟨s.holes, .ok s⟩ := by
  obtain ⟨function, f, bucket, offset, fallback, ⟨partitionBy, orderBy, _⟩⟩ := w
  obtain rfl : orderBy = items.map Prod.fst := listed
  have parts := WindowCall.orderParts_eq (f := fun o => (Node.ordered o).render c) order
  simp [Expr.render, WindowCall.render, WindowCall.renderOver, called.render_eq,
    renderOrder_eq] at parts partition frame ⊢
  simp [partition, frame, parts, Render.pure_eq, spelled, holes_partition partition,
    holes_frame frame]
  rfl

section Queries
variable {c : Context} {q : Query} {fields : List (FieldExpr × Sql)} {joins : List (Join × Sql)}
  {filter having : Option (Condition × Sql)} {items : List (OrderBy × Sql)}
  {sets : List (Assignment × Sql)} {output returning s : Sql}

theorem Query.render_select {distinct groupBy : Sql} {lock : Sql × Sql}
    (operation : q.operation = .select) (clauses : q.checkClauses = .ok ())
    (rules : q.checkSelect = .ok ())
    (distinctly : renderDistinct c.dialect q.distinct q.distinctOn = .ok distinct)
    (fieldsListed : q.fields = fields.map Prod.fst)
    (projects : ∀ f ∈ fields, (Node.projected f.1).render c = ⟨f.2.holes, .ok f.2⟩)
    (locks : renderLock c.dialect q.lock = .ok lock)
    (joinsListed : q.joins = joins.map Prod.fst)
    (joined : ∀ j ∈ joins, (Node.join j.1).render c = ⟨j.2.holes, .ok j.2⟩)
    (filterGiven : q.filter = filter.map Prod.fst)
    (filters : ∀ x ∈ filter,
      (Node.condition .whereClause false x.1).render c = ⟨x.2.holes, .ok x.2⟩)
    (groups : renderGroupBy c.dialect q.groupBy = .ok groupBy)
    (havingGiven : q.having = having.map Prod.fst)
    (havings : ∀ x ∈ having, (Node.condition .having false x.1).render c = ⟨x.2.holes, .ok x.2⟩)
    (itemsListed : q.orderBy = items.map Prod.fst)
    (order : ∀ o ∈ items, (Node.ordered o.1).render c = ⟨o.2.holes, .ok o.2⟩)
    (spelled : s = q.selectText c distinct (fields.map Prod.snd) lock (joins.map Prod.snd)
      (filter.map Prod.snd) groupBy (having.map Prod.snd) (items.map Prod.snd)) :
    q.render c = ⟨s.holes, .ok s⟩ := by
  have projection := renderProjection_eq (f := fun f => (Node.projected f).render c) projects
  have joins := renderJoins_eq (f := fun j => (Node.join j).render c) joined
  have filter := renderConditional_eq "WHERE"
    (f := fun x => (Node.condition .whereClause false x).render c) filters
  have having := renderConditional_eq "HAVING"
    (f := fun x => (Node.condition .having false x).render c) havings
  have order := renderOrderClause_eq (f := fun o => (Node.ordered o).render c) order
  rw [← fieldsListed] at projection
  rw [← joinsListed] at joins
  rw [← filterGiven] at filter
  rw [← havingGiven] at having
  rw [← itemsListed] at order
  rw [renderQuery_eq, renderOperation]
  simp only [operation, renderSelect, clauses, rules, distinctly, locks, groups, projection, joins,
    filter, having, order, Render.lift_eq, Render.ofExcept_ok_bind, Render.mk_ok_bind]
  simp [Render.pure_eq, spelled, selectText, holes_distinct distinctly, holes_lock locks,
    holes_groupBy groups]

theorem Query.render_count (operation : q.operation = .count) (clauses : q.checkClauses = .ok ())
    (joinsListed : q.joins = joins.map Prod.fst)
    (joined : ∀ j ∈ joins, (Node.join j.1).render c = ⟨j.2.holes, .ok j.2⟩)
    (filterGiven : q.filter = filter.map Prod.fst)
    (filters : ∀ x ∈ filter,
      (Node.condition .whereClause false x.1).render c = ⟨x.2.holes, .ok x.2⟩)
    (spelled : s = q.countText (joins.map Prod.snd) (filter.map Prod.snd)) :
    q.render c = ⟨s.holes, .ok s⟩ := by
  have joins := renderJoins_eq (f := fun j => (Node.join j).render c) joined
  have filter := renderConditional_eq "WHERE"
    (f := fun x => (Node.condition .whereClause false x).render c) filters
  rw [← joinsListed] at joins
  rw [← filterGiven] at filter
  rw [renderQuery_eq, renderOperation]
  simp only [operation, renderCount, clauses, joins, filter, Render.lift_eq,
    Render.ofExcept_ok_bind, Render.mk_ok_bind]
  simp [Render.pure_eq, spelled, countText]

theorem Query.render_insert {first : Row} {upsert : Sql} (operation : q.operation = .insert)
    (clauses : q.checkClauses = .ok ()) (shaped : checkRows q.rows = .ok first)
    (styled : c.HasPlaceholders)
    (outputs : renderOutput c.dialect .inserted q.returning = .ok output)
    (upserts : Upserts c q.onConflict upsert)
    (returns : renderReturning c.dialect q.returning = .ok returning)
    (spelled : s = q.insertText c first output upsert returning) :
    q.render c = ⟨s.holes, .ok s⟩ := by
  have tuples := Render.all_map_eq (f := renderTuple c) (g := tuple c)
    fun row (_ : row ∈ q.rows) => renderTuple_eq styled row
  rw [renderQuery_eq, renderOperation]
  simp only [operation, renderInsert, clauses, shaped, tuples, outputs, upserts.render_eq, returns,
    Render.lift_eq, Render.ofExcept_ok_bind, Render.mk_ok_bind]
  simp [Render.pure_eq, spelled, insertText, holes_output outputs, holes_returning returns]

theorem Query.render_update (operation : q.operation = .update) (clauses : q.checkClauses = .ok ())
    (assigned : sets ≠ []) (setsListed : q.assignments = sets.map Prod.fst)
    (values : ∀ a ∈ sets, (Node.assigned a.1.value).render c = ⟨a.2.holes, .ok a.2⟩)
    (plain : ∀ a ∈ sets, a.1.field.isPlain = true)
    (unrepeated : repeatedNeighbour? (sortAssignments (sets.map fun a => (a.1.field, a.2))) = none)
    (outputs : renderOutput c.dialect .inserted q.returning = .ok output)
    (filterGiven : q.filter = filter.map Prod.fst)
    (filters : ∀ x ∈ filter,
      (Node.condition .whereClause false x.1).render c = ⟨x.2.holes, .ok x.2⟩)
    (returns : renderReturning c.dialect q.returning = .ok returning)
    (spelled : s = q.updateText (sets.map fun a => (a.1.field, a.2)) output (filter.map Prod.snd)
      returning) :
    q.render c = ⟨s.holes, .ok s⟩ := by
  have set := renderAssignments_of_pairs Assignment.field
    (f := fun a => (Node.assigned a.value).render c) values plain unrepeated
  have filter := renderConditional_eq "WHERE"
    (f := fun x => (Node.condition .whereClause false x).render c) filters
  rw [← setsListed] at set
  rw [← filterGiven] at filter
  have some : q.assignments.isEmpty = false := by simpa [setsListed] using assigned
  rw [renderQuery_eq, renderOperation]
  simp only [operation, renderUpdate, clauses, some, set, outputs, filter, returns, Render.lift_eq,
    Render.ofExcept_ok_bind, Render.mk_ok_bind]
  simp [Render.pure_eq, spelled, updateText, holes_output outputs, holes_returning returns]

theorem Query.render_delete (operation : q.operation = .delete) (clauses : q.checkClauses = .ok ())
    (outputs : renderOutput c.dialect .deleted q.returning = .ok output)
    (filterGiven : q.filter = filter.map Prod.fst)
    (filters : ∀ x ∈ filter,
      (Node.condition .whereClause false x.1).render c = ⟨x.2.holes, .ok x.2⟩)
    (returns : renderReturning c.dialect q.returning = .ok returning)
    (spelled : s = q.deleteText output (filter.map Prod.snd) returning) :
    q.render c = ⟨s.holes, .ok s⟩ := by
  have filter := renderConditional_eq "WHERE"
    (f := fun x => (Node.condition .whereClause false x).render c) filters
  rw [← filterGiven] at filter
  rw [renderQuery_eq, renderOperation]
  simp only [operation, renderDelete, clauses, outputs, filter, returns, Render.lift_eq,
    Render.ofExcept_ok_bind, Render.mk_ok_bind]
  simp [Render.pure_eq, spelled, deleteText, holes_output outputs, holes_returning returns]

end Queries

/-- A derivation tells the whole of the rendering. -/
theorem Renders.render_eq {c : Context} {n : Node} {s : Sql} (made : Renders c n s) :
    n.render c = ⟨s.holes, .ok s⟩ := by
  -- a rule carries the outcome of every check, so the rendering computes along it
  induction made with
  | field columned =>
    simp [Node.render, Expr.render, Render.ofExcept, columned, Field.holes_of_render columned]
  | aggregate columned =>
    simp [Node.render, Expr.render, renderOptional, renderAggregate, columned, Render.pure_eq,
      aggregateOpening, holes_aggregateField columned]
  | filtered columned native _ ih =>
    simp only [Node.render] at ih
    simp [Node.render, Expr.render, renderOptional, renderAggregate, columned, Render.pure_eq, ih,
      native, aggregateOpening, holes_aggregateField columned]
  | chosen columned rewritten _ ih =>
    simp only [Node.render] at ih
    simp [Node.render, Expr.render, renderOptional, renderAggregate, columned, Render.pure_eq, ih,
      rewritten, aggregateOpening, holes_aggregateField columned]
  | @case c whens branched _ ih =>
    have all := Render.all_of_pairs (f := fun w => (Node.whenClause w).render c) ih
    simp [Node.render, Expr.render, renderCase, renderWhens_eq] at all ⊢
    simp [all, branched, Render.pure_eq]
  | @caseElse c whens otherwise branched _ styled ih =>
    have all := Render.all_of_pairs (f := fun w => (Node.whenClause w).render c) ih
    simp [Node.render, Expr.render, renderCase, renderWhens_eq] at all ⊢
    simp [all, branched, Context.param_eq styled, Render.pure_eq]
  | @coalesce c operands several rendered =>
    have all := Render.all_of_pairs (f := fun o => Operand.render o c) fun o member =>
      Operand.render_eq (rendered o member)
    have enough : ¬ operands.length < 2 := by omega
    simp [Node.render, Expr.render, renderCoalesce, enough] at all ⊢
    simp [all, Render.pure_eq]
  | nullIf first second =>
    simp [Node.render, Expr.render, renderNullIf, Operand.render_eq first,
      Operand.render_eq second, Render.pure_eq]
  | math columned argument =>
    simp [Node.render, Expr.render, MathCall.render, columned, argument, Render.pure_eq,
      holes_mathCall_none, Field.holes_of_render columned]
  | mathWith columned argument styled =>
    simp [Node.render, Expr.render, MathCall.render, columned, argument, Render.pure_eq,
      Context.param_eq styled, holes_mathCall argument, Field.holes_of_render columned]
  | cast columned typed =>
    simp [Node.render, Expr.render, renderCast, columned, typed, Render.ofExcept, bind,
      Except.bind, pure, Except.pure, Field.holes_of_render columned]
  | window called partition listed _ frame ih =>
    exact WindowCall.render_of_parts called partition listed ih frame rfl
  | @binary c f op p column text columned styled joined =>
    simp [Node.render, Expr.render, renderBinary, columned, Context.param_eq styled, joined,
      Render.ofExcept, holes_binary joined, Field.holes_of_render columned]
  | projected _ ih =>
    simp only [Node.render] at ih
    simp [Node.render, renderFieldExpr, ih, Render.pure_eq]
  | aliased _ ih =>
    simp only [Node.render] at ih
    simp [Node.render, renderFieldExpr, ih, Render.pure_eq]
  | ordered _ ih =>
    simp only [Node.render] at ih
    simp [Node.render, renderOrderItem, ih, Render.pure_eq]
  | orderedNulls _ supported ih =>
    simp only [Node.render] at ih
    simp [Node.render, renderOrderItem, ih, Render.pure_eq, Dialect.require, supported]
  | whenClause _ styled ih =>
    simp only [Node.render] at ih
    simp [Node.render, renderWhen, ih, Context.param_eq styled, Render.pure_eq]
  | null columned unary =>
    simp [Node.render, Condition.render, renderSimple, columned, unary, Render.pure_eq,
      Field.holes_of_render columned]
  | simple columned binary takes styled =>
    simp [Node.render, Condition.render, renderSimple, columned, binary, takes,
      Context.param_eq styled, Render.pure_eq, Field.holes_of_render columned]
  | only _ ih => exact ih
  | @group c scope nested op items several _ ih =>
    have all := Render.all_of_pairs (f := fun x => (Node.condition scope true x).render c) ih
    obtain _ | ⟨first, _ | ⟨second, rest⟩⟩ := items
    · simp at several
    · simp at several
    · simp only [Node.render, List.map_cons, Condition.render, renderGroup, renderItems_eq] at all ⊢
      rw [all]
      cases nested <;> simp [Render.pure_eq]
  | fieldComparison comparing first second =>
    simp [Node.render, Condition.render, renderFieldComparison, comparing, first, second,
      Render.ofExcept, bind, Except.bind, pure, Except.pure, Field.holes_of_render first,
      Field.holes_of_render second]
  | subquery started reading entered _ ih =>
    simp only [Node.render] at ih
    simp [Node.render, Condition.render, renderSubquery, started, reading, entered, ih,
      Render.pure_eq, holes_subqueryLeft started]
  | between columned styled =>
    simp [Node.render, Condition.render, renderBetween, columned, Context.param_eq styled,
      Render.pure_eq, Field.holes_of_render columned]
  | aggregateCondition comparing columned styled =>
    simp [Node.render, Condition.render, renderAggregateCondition, renderAggregate, comparing,
      columned, Context.param_eq styled, Render.pure_eq, holes_aggregateField columned,
      aggregateOpening]
  | @expression c scope nested e op p left comparing placed _ styled ih =>
    simp only [Node.render] at ih
    simp [Node.render, Condition.render, renderExpressionCondition, comparing, ih,
      Context.param_eq styled, Render.pure_eq]
    intro aggregates elsewhere
    exact absurd (placed aggregates) elsewhere
  | crossJoin formed supported =>
    simp [Node.render, renderJoin, formed, Dialect.require, supported, Render.pure_eq,
      Table.holes_render]
  | join formed supported _ ih =>
    simp only [Node.render] at ih
    simp [Node.render, renderJoin, formed, Dialect.require, supported, ih, Render.pure_eq,
      Table.holes_render]
  | assignedParam styled => exact Context.param_eq styled _
  | assignedExpr admitted _ ih =>
    simp only [Node.render] at ih
    simp [Node.render, renderAssigned, admitted, ih]
  | select operation clauses rules distinctly fieldsListed _ locks joinsListed _ filterGiven _
      groups havingGiven _ itemsListed _ projects joined filters havings order =>
    exact Query.render_select operation clauses rules distinctly fieldsListed projects locks
      joinsListed joined filterGiven filters groups havingGiven havings itemsListed order rfl
  | count operation clauses joinsListed _ filterGiven _ joined filters =>
    exact Query.render_count operation clauses joinsListed joined filterGiven filters rfl
  | insert operation clauses shaped styled outputs upserts returns =>
    exact Query.render_insert operation clauses shaped styled outputs upserts returns rfl
  | update operation clauses assigned setsListed _ plain unrepeated outputs filterGiven _ returns
      values filters =>
    exact Query.render_update operation clauses assigned setsListed values plain unrepeated outputs
      filterGiven filters returns rfl
  | delete operation clauses outputs filterGiven _ returns filters =>
    exact Query.render_delete operation clauses outputs filterGiven filters returns rfl

end TypedSql
