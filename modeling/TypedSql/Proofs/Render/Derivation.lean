import TypedSql.Proofs.Render.Assignment
import TypedSql.Proofs.Render.Upsert
import TypedSql.Proofs.Render.Window
import TypedSql.Proofs.Tree.Part
import TypedSql.Render.Statement

namespace TypedSql

/-- What rendering recurs over. A condition comes with the clause it stands in and whether it
    is a member of a group. -/
inductive Node where
  | expr (e : Expr)
  | projected (f : FieldExpr)
  | ordered (o : OrderBy)
  | whenClause (w : WhenClause)
  | condition (scope : Scope) (nested : Bool) (x : Condition)
  | join (j : Join)
  | assigned (v : AssignValue)
  | query (q : Query)

def Node.render : Node → Context → Render Sql
  | .expr e, c => e.render c
  | .projected f, c => renderFieldExpr (f.expr.render c) f.alias?
  | .ordered o, c => renderOrderItem c (o.expr.render c) o.direction o.nulls
  | .whenClause w, c => renderWhen c (w.condition.render c .caseWhen false) w.result
  | .condition scope nested x, c => x.render c scope nested
  | .join j, c => renderJoin c j (j.on.map fun on => on.render c .joinOn false)
  | .assigned (.param p), c => c.param p
  | .assigned (.expr e), c => renderAssigned c (.expr e) (e.render c)
  | .query q, c => q.render c

section Lists
variable (c : Context)

theorem renderOptional_eq (x : Option Condition) (scope : Scope) :
    renderOptional x c scope = x.map fun x => (Node.condition scope false x).render c := by
  cases x <;> rfl

theorem renderItems_eq (items : List Condition) (scope : Scope) :
    renderItems items c scope = items.map fun x => (Node.condition scope true x).render c := by
  induction items with
  | nil => rfl
  | cons x rest ih => simp [renderItems, ih, Node.render]

theorem renderWhens_eq (whens : List WhenClause) :
    renderWhens whens c = whens.map fun w => (Node.whenClause w).render c := by
  induction whens with
  | nil => rfl
  | cons w rest ih => cases w; simp [renderWhens, ih, Node.render]

theorem renderOrder_eq (items : List OrderBy) :
    renderOrder items c = items.map fun o => (Node.ordered o).render c := by
  induction items with
  | nil => rfl
  | cons o rest ih => cases o; simp [renderOrder, ih, Node.render]

theorem renderFieldExprs_eq (fields : List FieldExpr) :
    renderFieldExprs fields c = fields.map fun f => (Node.projected f).render c := by
  induction fields with
  | nil => rfl
  | cons f rest ih => cases f; simp [renderFieldExprs, ih, Node.render]

theorem renderJoined_eq (joins : List Join) :
    renderJoined joins c = joins.map fun j => (Node.join j).render c := by
  induction joins with
  | nil => rfl
  | cons j rest ih => cases j; simp [renderJoined, ih, Node.render, renderOptional_eq]

theorem renderSets_eq (assignments : List Assignment) :
    renderSets assignments c =
      assignments.map fun a => (a.field, (Node.assigned a.value).render c) := by
  induction assignments with
  | nil => rfl
  | cons a rest ih => obtain ⟨target, value⟩ := a; cases value <;> simp [renderSets, ih, Node.render]

theorem renderQuery_eq (q : Query) :
    q.render c = renderOperation c q
      { fields := q.fields.map fun f => (Node.projected f).render c
        joins := q.joins.map fun j => (Node.join j).render c
        filter := q.filter.map fun x => (Node.condition .whereClause false x).render c
        having := q.having.map fun x => (Node.condition .having false x).render c
        orderBy := q.orderBy.map fun o => (Node.ordered o).render c
        assignments := q.assignments.map fun a => (a.field, (Node.assigned a.value).render c) } := by
  cases q
  simp only [Query.render, renderFieldExprs_eq, renderJoined_eq, renderOptional_eq, renderOrder_eq,
    renderSets_eq]

end Lists

def projection (parts : List Sql) : Sql :=
  if parts.isEmpty then sql "*" else Sql.commaList parts

def conditional (keyword : String) (condition : Option Sql) : Sql :=
  condition.elim [] fun text => sql (" " ++ keyword ++ " ") ++ text

def orderClause (parts : List Sql) : Sql :=
  if parts.isEmpty then [] else sql " ORDER BY " ++ Sql.commaList parts

def windowOrder (parts : List Sql) : List Sql :=
  if parts.isEmpty then [] else [sql "ORDER BY " ++ Sql.commaList parts]

def tuple (c : Context) (row : Row) : Sql :=
  Sql.parenthesised (Sql.commaList (row.values.map c.placeholder))

section Texts
variable (c : Context) (q : Query)

def Query.selectText (distinct : Sql) (fields : List Sql) (lock : Sql × Sql) (joins : List Sql)
    (filter : Option Sql) (groupBy : Sql) (having : Option Sql) (items : List Sql) : Sql :=
  sql "SELECT " ++ distinct ++ projection fields ++ sql " FROM " ++ q.table.render ++ lock.1 ++
    joins.flatten ++ conditional "WHERE" filter ++ groupBy ++ conditional "HAVING" having ++
    orderClause items ++ sql (c.dialect.pagination q.limit q.offset (!q.orderBy.isEmpty)) ++ lock.2

def Query.countText (joins : List Sql) (filter : Option Sql) : Sql :=
  sql "SELECT COUNT(*) FROM " ++ q.table.render ++ joins.flatten ++ conditional "WHERE" filter

def Query.insertText (first : Row) (output upsert returning : Sql) : Sql :=
  sql (insertKeyword c.dialect q.onConflict) ++ q.table.render ++ sql " (" ++
    Sql.commaList (first.names.map fun column => [.name .field column]) ++ sql ")" ++ output ++
    sql " VALUES " ++ Sql.commaList (q.rows.map (tuple c)) ++ upsert ++ returning

def Query.updateText (sets : List (Field × Sql)) (output : Sql) (filter : Option Sql)
    (returning : Sql) : Sql :=
  sql "UPDATE " ++ q.table.render ++ sql " SET " ++
    Sql.commaList ((sortAssignments sets).map assignmentSql) ++ output ++
    conditional "WHERE" filter ++ returning

def Query.deleteText (output : Sql) (filter : Option Sql) (returning : Sql) : Sql :=
  sql "DELETE FROM " ++ q.table.render ++ output ++ conditional "WHERE" filter ++ returning

end Texts

def aggregateOpening (kind : AggregateKind) : String := kind.functionName ++ "(" ++ kind.qualifier

/-- How a successful rendering comes about. Lists pair each constituent with what it is
    rendered to. -/
inductive Renders : Context → Node → Sql → Prop where
  | field {c f column} (columned : f.render c.dialect = .ok column) :
      Renders c (.expr (.field f)) column
  | aggregate {c kind f column}
      (columned : aggregateField c.dialect kind f .aggregateField = .ok column) :
      Renders c (.expr (.aggregate ⟨kind, f, none⟩))
        (sql (aggregateOpening kind) ++ column.getD (sql "*") ++ sql ")")
  | filtered {c kind f column filter condition}
      (columned : aggregateField c.dialect kind f .aggregateField = .ok column)
      (native : c.dialect.filtersAggregates = true)
      (filters : Renders c (.condition .filter false filter) condition) :
      Renders c (.expr (.aggregate ⟨kind, f, some filter⟩))
        (sql (aggregateOpening kind) ++ column.getD (sql "*") ++ sql ") FILTER (WHERE " ++
          condition ++ sql ")")
  | chosen {c kind f column filter condition}
      (columned : aggregateField c.dialect kind f .aggregateField = .ok column)
      (rewritten : c.dialect.filtersAggregates = false)
      (filters : Renders c (.condition .filter false filter) condition) :
      Renders c (.expr (.aggregate ⟨kind, f, some filter⟩))
        (sql (aggregateOpening kind ++ "CASE WHEN ") ++ condition ++ sql " THEN " ++
          column.getD (sql "1") ++ sql " END)")
  | case {c} {whens : List (WhenClause × Sql)} (branched : whens ≠ [])
      (branches : ∀ w ∈ whens, Renders c (.whenClause w.1) w.2) :
      Renders c (.expr (.case ⟨whens.map Prod.fst, none⟩))
        (sql "CASE" ++ (whens.map Prod.snd).flatten ++ sql " END")
  | caseElse {c} {whens : List (WhenClause × Sql)} {otherwise} (branched : whens ≠ [])
      (branches : ∀ w ∈ whens, Renders c (.whenClause w.1) w.2) (styled : c.HasPlaceholders) :
      Renders c (.expr (.case ⟨whens.map Prod.fst, some otherwise⟩))
        (sql "CASE" ++ (whens.map Prod.snd).flatten ++ sql " ELSE " ++ c.placeholder otherwise ++
          sql " END")
  | coalesce {c} {operands : List (Operand × Sql)} (several : 2 ≤ operands.length)
      (rendered : ∀ o ∈ operands, (o.1.render c).result = .ok o.2) :
      Renders c (.expr (.coalesce (operands.map Prod.fst)))
        (sql "COALESCE(" ++ Sql.commaList (operands.map Prod.snd) ++ sql ")")
  | nullIf {c left right l r} (first : (left.render c).result = .ok l)
      (second : (right.render c).result = .ok r) :
      Renders c (.expr (.nullIf left right)) (sql "NULLIF(" ++ l ++ sql ", " ++ r ++ sql ")")
  | math {c call column} (columned : call.field.render c.dialect = .ok column)
      (argument : call.argument? = .ok none) :
      Renders c (.expr (.math call)) (c.dialect.mathCall call.function column none)
  | mathWith {c call column p} (columned : call.field.render c.dialect = .ok column)
      (argument : call.argument? = .ok (some p)) (styled : c.HasPlaceholders) :
      Renders c (.expr (.math call))
        (c.dialect.mathCall call.function column (some (c.placeholder p)))
  | cast {c f type column name} (columned : f.render c.dialect = .ok column)
      (typed : c.dialect.castType type = .ok name) :
      Renders c (.expr (.cast f type)) (sql "CAST(" ++ column ++ sql (" AS " ++ name ++ ")"))
  | window {c w call partitioned framed} {items : List (OrderBy × Sql)}
      (called : w.Calls c call)
      (partition : WindowCall.partitionParts c.dialect w.window.partitionBy = .ok partitioned)
      (listed : w.window.orderBy = items.map Prod.fst)
      (order : ∀ o ∈ items, Renders c (.ordered o.1) o.2)
      (frame : WindowCall.frameParts w.window.frame = .ok framed) :
      Renders c (.expr (.window w))
        (call ++ sql " OVER (" ++
          Sql.join " " (partitioned ++ windowOrder (items.map Prod.snd) ++ framed) ++ sql ")")
  | binary {c f op p column text} (columned : f.render c.dialect = .ok column)
      (styled : c.HasPlaceholders)
      (joined : c.dialect.binary column op (c.placeholder p) = .ok text) :
      Renders c (.expr (.binary f op p)) text
  | projected {c e text} (plain : Renders c (.expr e) text) : Renders c (.projected ⟨e, none⟩) text
  | aliased {c e text output} (plain : Renders c (.expr e) text) :
      Renders c (.projected ⟨e, some output⟩)
        (text ++ [.text " AS ", .name .outputAlias output.name])
  | ordered {c e text direction} (plain : Renders c (.expr e) text) :
      Renders c (.ordered ⟨e, direction, none⟩) (text ++ sql direction.suffix)
  | orderedNulls {c e text direction nulls} (plain : Renders c (.expr e) text)
      (supported : c.dialect.supports .nullsOrdering = true) :
      Renders c (.ordered ⟨e, direction, some nulls⟩)
        (text ++ sql (direction.suffix ++ nulls.suffix))
  | whenClause {c x text result} (holds : Renders c (.condition .caseWhen false x) text)
      (styled : c.HasPlaceholders) :
      Renders c (.whenClause ⟨x, result⟩)
        (sql " WHEN " ++ text ++ sql " THEN " ++ c.placeholder result)
  | null {c scope nested f op column} (columned : f.render c.dialect = .ok column)
      (unary : op.isUnary = true) :
      Renders c (.condition scope nested (.simple f op none)) (column ++ sql (" " ++ op.symbol))
  | simple {c scope nested f op p column} (columned : f.render c.dialect = .ok column)
      (binary : op.isUnary = false) (takes : op.takesParam = true) (styled : c.HasPlaceholders) :
      Renders c (.condition scope nested (.simple f op (some p)))
        (compareSides c.dialect column op (c.placeholder p))
  | only {c scope nested op x text} (single : Renders c (.condition scope nested x) text) :
      Renders c (.condition scope nested (.group op [x])) text
  | group {c scope nested op} {items : List (Condition × Sql)} (several : 2 ≤ items.length)
      (members : ∀ x ∈ items, Renders c (.condition scope true x.1) x.2) :
      Renders c (.condition scope nested (.group op (items.map Prod.fst)))
        (if nested then
          Sql.parenthesised (Sql.join (" " ++ op.keyword ++ " ") (items.map Prod.snd))
        else Sql.join (" " ++ op.keyword ++ " ") (items.map Prod.snd))
  | fieldComparison {c scope nested left op right l r}
      (comparing : (op.isComparison || op.isPattern) = true)
      (first : left.render c.dialect = .ok l) (second : right.render c.dialect = .ok r) :
      Renders c (.condition scope nested (.fieldComparison left op right))
        (compareSides c.dialect l op r)
  | subquery {c scope nested f op q left child text} (started : subqueryLeft c f op = .ok left)
      (reading : checkSubquery q.operation = .ok ()) (entered : c.enter = .ok child)
      (inner : Renders child (.query q) text) :
      Renders c (.condition scope nested (.subquery f op q)) (left ++ Sql.parenthesised text)
  | between {c scope nested f low high negated column}
      (columned : f.render c.dialect = .ok column) (styled : c.HasPlaceholders) :
      Renders c (.condition scope nested (.between f low high negated))
        (column ++ sql (if negated then " NOT BETWEEN " else " BETWEEN ") ++ c.placeholder low ++
          sql " AND " ++ c.placeholder high)
  | aggregateCondition {c nested kind f op p column} (comparing : op.isComparison = true)
      (columned : aggregateField c.dialect kind f .aggregateField = .ok column)
      (styled : c.HasPlaceholders) :
      Renders c (.condition .having nested (.aggregate kind f op p))
        (sql (aggregateOpening kind) ++ column.getD (sql "*") ++ sql ")" ++
          sql (" " ++ op.symbol ++ " ") ++ c.placeholder p)
  | expression {c scope nested e op p left} (comparing : (op.isComparison || op.isPattern) = true)
      (placed : e.isAggregate = true → scope = .having) (computed : Renders c (.expr e) left)
      (styled : c.HasPlaceholders) :
      Renders c (.condition scope nested (.expression e op p))
        (compareSides c.dialect left op (c.placeholder p))
  | crossJoin {c kind table} (formed : Join.isWellFormed ⟨kind, table, none⟩ = true)
      (supported : c.dialect.supports (.join kind) = true) :
      Renders c (.join ⟨kind, table, none⟩)
        (sql (" " ++ kind.keyword ++ " JOIN ") ++ table.render)
  | join {c kind table on text} (formed : Join.isWellFormed ⟨kind, table, some on⟩ = true)
      (supported : c.dialect.supports (.join kind) = true)
      (matching : Renders c (.condition .joinOn false on) text) :
      Renders c (.join ⟨kind, table, some on⟩)
        (sql (" " ++ kind.keyword ++ " JOIN ") ++ table.render ++ sql " ON " ++ text)
  | assignedParam {c p} (styled : c.HasPlaceholders) :
      Renders c (.assigned (.param p)) (c.placeholder p)
  | assignedExpr {c e text} (admitted : checkAssigned (.expr e) = .ok ())
      (computed : Renders c (.expr e) text) : Renders c (.assigned (.expr e)) text
  | select {c q distinct lock groupBy} {fields : List (FieldExpr × Sql)}
      {joins : List (Join × Sql)} {filter having : Option (Condition × Sql)}
      {items : List (OrderBy × Sql)} (operation : q.operation = .select)
      (clauses : q.checkClauses = .ok ()) (rules : q.checkSelect = .ok ())
      (distinctly : renderDistinct c.dialect q.distinct q.distinctOn = .ok distinct)
      (fieldsListed : q.fields = fields.map Prod.fst)
      (projects : ∀ f ∈ fields, Renders c (.projected f.1) f.2)
      (locks : renderLock c.dialect q.lock = .ok lock)
      (joinsListed : q.joins = joins.map Prod.fst)
      (joined : ∀ j ∈ joins, Renders c (.join j.1) j.2)
      (filterGiven : q.filter = filter.map Prod.fst)
      (filters : ∀ x ∈ filter, Renders c (.condition .whereClause false x.1) x.2)
      (groups : renderGroupBy c.dialect q.groupBy = .ok groupBy)
      (havingGiven : q.having = having.map Prod.fst)
      (havings : ∀ x ∈ having, Renders c (.condition .having false x.1) x.2)
      (itemsListed : q.orderBy = items.map Prod.fst)
      (order : ∀ o ∈ items, Renders c (.ordered o.1) o.2) :
      Renders c (.query q)
        (q.selectText c distinct (fields.map Prod.snd) lock (joins.map Prod.snd)
          (filter.map Prod.snd) groupBy (having.map Prod.snd) (items.map Prod.snd))
  | count {c q} {joins : List (Join × Sql)} {filter : Option (Condition × Sql)}
      (operation : q.operation = .count) (clauses : q.checkClauses = .ok ())
      (joinsListed : q.joins = joins.map Prod.fst)
      (joined : ∀ j ∈ joins, Renders c (.join j.1) j.2)
      (filterGiven : q.filter = filter.map Prod.fst)
      (filters : ∀ x ∈ filter, Renders c (.condition .whereClause false x.1) x.2) :
      Renders c (.query q)
        (q.countText (joins.map Prod.snd) (filter.map Prod.snd))
  | insert {c q first output upsert returning} (operation : q.operation = .insert)
      (clauses : q.checkClauses = .ok ()) (shaped : checkRows q.rows = .ok first)
      (styled : c.HasPlaceholders)
      (outputs : renderOutput c.dialect .inserted q.returning = .ok output)
      (upserts : Upserts c q.onConflict upsert)
      (returns : renderReturning c.dialect q.returning = .ok returning) :
      Renders c (.query q) (q.insertText c first output upsert returning)
  | update {c q output returning} {sets : List (Assignment × Sql)}
      {filter : Option (Condition × Sql)} (operation : q.operation = .update)
      (clauses : q.checkClauses = .ok ()) (assigned : sets ≠ [])
      (setsListed : q.assignments = sets.map Prod.fst)
      (values : ∀ a ∈ sets, Renders c (.assigned a.1.value) a.2)
      (plain : ∀ a ∈ sets, a.1.field.isPlain = true)
      (unrepeated : repeatedNeighbour? (sortAssignments (sets.map fun a => (a.1.field, a.2))) = none)
      (outputs : renderOutput c.dialect .inserted q.returning = .ok output)
      (filterGiven : q.filter = filter.map Prod.fst)
      (filters : ∀ x ∈ filter, Renders c (.condition .whereClause false x.1) x.2)
      (returns : renderReturning c.dialect q.returning = .ok returning) :
      Renders c (.query q)
        (q.updateText (sets.map fun a => (a.1.field, a.2)) output (filter.map Prod.snd) returning)
  | delete {c q output returning} {filter : Option (Condition × Sql)}
      (operation : q.operation = .delete) (clauses : q.checkClauses = .ok ())
      (outputs : renderOutput c.dialect .deleted q.returning = .ok output)
      (filterGiven : q.filter = filter.map Prod.fst)
      (filters : ∀ x ∈ filter, Renders c (.condition .whereClause false x.1) x.2)
      (returns : renderReturning c.dialect q.returning = .ok returning) :
      Renders c (.query q) (q.deleteText output (filter.map Prod.snd) returning)

/-- That a successful rendering of the constituent has a derivation. -/
def Part.Derivable : Part → Prop
  | .expr e => ∀ c s, (e.render c).result = .ok s → Renders c (.expr e) s
  | .projected f =>
    ∀ c s, ((Node.projected f).render c).result = .ok s → Renders c (.projected f) s
  | .ordered o => ∀ c s, ((Node.ordered o).render c).result = .ok s → Renders c (.ordered o) s
  | .whenClause w =>
    ∀ c s, ((Node.whenClause w).render c).result = .ok s → Renders c (.whenClause w) s
  | .condition x => ∀ c scope nested s, (x.render c scope nested).result = .ok s →
    Renders c (.condition scope nested x) s
  | .join j => ∀ c s, ((Node.join j).render c).result = .ok s → Renders c (.join j) s
  | .assignment a => ∀ c s, ((Node.assigned a.value).render c).result = .ok s →
    Renders c (.assigned a.value) s
  | .query q => ∀ c s, (q.render c).result = .ok s → Renders c (.query q) s
  | _ => True

theorem NameMap.isEmpty_of_values {α : Type} {m : NameMap α} (none : m.values = []) :
    m.isEmpty = true := by
  simpa [NameMap.values, NameMap.isEmpty] using none

section Clauses
variable {α : Type} {f : α → Render Sql} {xs : List α} {s : Sql}

theorem Render.ok_of_isEmpty_or_all {β : Type} {empty y : β} {build : List Sql → β}
    (success : (if (xs.map f).isEmpty then pure empty else do
      let parts ← Render.all (xs.map f)
      pure (build parts) : Render β).result = .ok y) :
    ∃ pairs : List (α × Sql), xs = pairs.map Prod.fst ∧
      y = (if (pairs.map Prod.snd).isEmpty then empty else build (pairs.map Prod.snd)) ∧
      ∀ p ∈ pairs, (f p.1).result = .ok p.2 := by
  split at success
  · rename_i none
    simp only [Render.result_pure, Except.ok.injEq] at success
    exact ⟨[], by simpa using none, success.symm, by simp⟩
  · rename_i some
    simp only [Render.bind_ok_iff, Render.result_pure, Except.ok.injEq] at success
    obtain ⟨parts, all, rfl⟩ := success
    obtain ⟨pairs, rfl, rfl, each⟩ := Render.exists_pairs_of_all all
    have full : (pairs.map Prod.snd).isEmpty = false := by simpa using some
    exact ⟨pairs, rfl, by simp only [full, Bool.false_eq_true, ↓reduceIte], each⟩

theorem WindowCall.orderParts_ok {ordered : List Sql}
    (success : (WindowCall.orderParts (xs.map f)).result = .ok ordered) :
    ∃ pairs : List (α × Sql), xs = pairs.map Prod.fst ∧
      ordered = windowOrder (pairs.map Prod.snd) ∧ ∀ p ∈ pairs, (f p.1).result = .ok p.2 :=
  Render.ok_of_isEmpty_or_all success

theorem renderOrderClause_ok (success : (renderOrderClause (xs.map f)).result = .ok s) :
    ∃ pairs : List (α × Sql), xs = pairs.map Prod.fst ∧ s = orderClause (pairs.map Prod.snd) ∧
      ∀ p ∈ pairs, (f p.1).result = .ok p.2 :=
  Render.ok_of_isEmpty_or_all success

theorem renderProjection_ok (success : (renderProjection (xs.map f)).result = .ok s) :
    ∃ pairs : List (α × Sql), xs = pairs.map Prod.fst ∧ s = projection (pairs.map Prod.snd) ∧
      ∀ p ∈ pairs, (f p.1).result = .ok p.2 :=
  Render.ok_of_isEmpty_or_all success

theorem renderJoins_ok (success : (renderJoins (xs.map f)).result = .ok s) :
    ∃ pairs : List (α × Sql), xs = pairs.map Prod.fst ∧ s = (pairs.map Prod.snd).flatten ∧
      ∀ p ∈ pairs, (f p.1).result = .ok p.2 := by
  simp only [renderJoins, Render.bind_ok_iff, Render.result_pure, Except.ok.injEq] at success
  obtain ⟨parts, all, rfl⟩ := success
  obtain ⟨pairs, rfl, rfl, each⟩ := Render.exists_pairs_of_all all
  exact ⟨pairs, rfl, rfl, each⟩

theorem renderConditional_ok {keyword : String} {x : Option α}
    (success : (renderConditional keyword (x.map f)).result = .ok s) :
    ∃ pair : Option (α × Sql), x = pair.map Prod.fst ∧
      s = conditional keyword (pair.map Prod.snd) ∧ ∀ p ∈ pair, (f p.1).result = .ok p.2 := by
  cases x with
  | none =>
    simp only [renderConditional, Option.map_none, Render.result_pure, Except.ok.injEq] at success
    exact ⟨none, rfl, success.symm, by simp⟩
  | some x =>
    simp only [renderConditional, Option.map_some, Render.bind_ok_iff, Render.result_pure,
      Except.ok.injEq] at success
    obtain ⟨text, each, rfl⟩ := success
    exact ⟨some (x, text), rfl, rfl, by simpa using each⟩

theorem renderTuple_ok {c : Context} {row : Row} (success : (renderTuple c row).result = .ok s) :
    s = tuple c row ∧ (row.isEmpty = false → c.HasPlaceholders) := by
  simp only [renderTuple, Render.bind_ok_iff, Render.result_pure, Except.ok.injEq] at success
  obtain ⟨values, all, rfl⟩ := success
  obtain ⟨pairs, listed, rfl, each⟩ := Render.exists_pairs_of_all all
  simp only [Context.param_ok_iff] at each
  have written : pairs.map Prod.snd = (pairs.map Prod.fst).map c.placeholder := by
    rw [List.map_map]
    exact List.map_congr_left fun p member => (each p member).2.symm
  refine ⟨by rw [tuple, written, listed], fun full => ?_⟩
  cases pairs with
  | nil =>
    have := NameMap.isEmpty_of_values listed
    simp_all
  | cons p rest => exact (each p List.mem_cons_self).1

theorem checkRows_ok {rows : List Row} {first : Row} (shaped : checkRows rows = .ok first) :
    first ∈ rows ∧ first.isEmpty = false ∧ ∀ row ∈ rows, row.names = first.names := by
  cases rows with
  | nil => simp [checkRows] at shaped
  | cons head rest =>
    simp only [checkRows] at shaped
    split at shaped
    · simp at shaped
    · rename_i full
      split at shaped
      · simp at shaped
      · rename_i same
        obtain rfl : head = first := by simpa using shaped
        refine ⟨List.mem_cons_self, by simpa using full, fun row member => ?_⟩
        have := List.findIdx?_eq_none_iff.mp same row member
        simpa [Row.sameColumns] using this

theorem renderTuples_ok {c : Context} {rows : List Row} {first : Row} {tuples : List Sql}
    (shaped : checkRows rows = .ok first)
    (success : (Render.all (rows.map (renderTuple c))).result = .ok tuples) :
    c.HasPlaceholders ∧ tuples = rows.map (tuple c) := by
  obtain ⟨member, full, -⟩ := checkRows_ok shaped
  obtain ⟨pairs, rfl, rfl, each⟩ := Render.exists_pairs_of_all success
  obtain ⟨p, inside, rfl⟩ := List.mem_map.mp member
  refine ⟨(renderTuple_ok (each p inside)).2 full, ?_⟩
  rw [List.map_map]
  exact List.map_congr_left fun p member => (renderTuple_ok (each p member)).1

end Clauses

section Backward
variable {c : Context} {s : Sql}

theorem Expr.renders {e : Expr} (below : ∀ p ∈ e.parts, p.Derivable)
    (success : (e.render c).result = .ok s) : Renders c (.expr e) s := by
  cases e with
  | field f => exact .field success
  | aggregate call =>
    obtain ⟨kind, f, filter⟩ := call
    simp only [Expr.render, renderAggregate, Render.bind_ok_iff, Render.lift_eq,
      Render.result_ofExcept] at success
    obtain ⟨column, columned, success⟩ := success
    cases filter with
    | none =>
      simp only [renderOptional, Render.result_pure, Except.ok.injEq] at success
      subst success
      exact .aggregate columned
    | some filter =>
      simp only [renderOptional, Render.bind_ok_iff] at success
      obtain ⟨condition, filtered, success⟩ := success
      have filters : Renders c (.condition .filter false filter) condition :=
        below (.condition filter) (by simp [Expr.parts]) c .filter false condition filtered
      cases native : c.dialect.filtersAggregates
      · simp only [native, Bool.false_eq_true, ↓reduceIte, Render.result_pure,
          Except.ok.injEq] at success
        subst success
        exact .chosen columned native filters
      · simp only [native, ↓reduceIte, Render.result_pure, Except.ok.injEq] at success
        subst success
        exact .filtered columned native filters
  | case cases =>
    obtain ⟨whens, otherwise⟩ := cases
    simp only [Expr.render, renderCase, renderWhens_eq] at success
    split at success
    · simp only [Render.fail_bind, Render.result_fail, reduceCtorEq] at success
    · rename_i branched
      simp only [Render.bind_ok_iff] at success
      obtain ⟨parts, all, success⟩ := success
      obtain ⟨pairs, rfl, rfl, each⟩ := Render.exists_pairs_of_all all
      have branches : ∀ w ∈ pairs, Renders c (.whenClause w.1) w.2 := fun w member =>
        below (.whenClause w.1) (by simpa [Expr.parts] using ⟨_, member⟩) c w.2 (each w member)
      have some : pairs ≠ [] := by rintro rfl; simp at branched
      cases otherwise with
      | none =>
        simp only [Render.result_pure, Except.ok.injEq] at success
        subst success
        exact .case some branches
      | some p =>
        simp only [Render.bind_ok_iff, Context.param_ok_iff, Render.result_pure,
          Except.ok.injEq] at success
        obtain ⟨_, ⟨styled, rfl⟩, rfl⟩ := success
        exact .caseElse some branches styled
  | coalesce operands =>
    simp only [Expr.render, renderCoalesce] at success
    split at success
    · simp at success
    · rename_i several
      simp only [Render.bind_ok_iff, Render.result_pure, Except.ok.injEq] at success
      obtain ⟨parts, all, rfl⟩ := success
      obtain ⟨pairs, rfl, rfl, each⟩ := Render.exists_pairs_of_all all
      exact .coalesce (by simp only [List.length_map, Nat.not_lt] at several; exact several) each
  | nullIf left right =>
    simp only [Expr.render, renderNullIf, Render.bind_ok_iff, Render.result_pure,
      Except.ok.injEq] at success
    obtain ⟨l, first, r, second, rfl⟩ := success
    exact .nullIf first second
  | math call =>
    simp only [Expr.render, MathCall.render, Render.bind_ok_iff, Render.lift_eq,
      Render.result_ofExcept] at success
    obtain ⟨column, columned, argument, given, success⟩ := success
    cases argument with
    | none =>
      simp only [Render.result_pure, Except.ok.injEq] at success
      subst success
      exact .math columned given
    | some p =>
      simp only [Render.bind_ok_iff, Context.param_ok_iff, Render.result_pure,
        Except.ok.injEq] at success
      obtain ⟨_, ⟨styled, rfl⟩, rfl⟩ := success
      exact .mathWith columned given styled
  | cast f type =>
    simp only [Expr.render, renderCast, Render.result_ofExcept, Except.bind_eq_ok, pure,
      Except.pure, Except.ok.injEq] at success
    obtain ⟨column, columned, name, typed, rfl⟩ := success
    exact .cast columned typed
  | window w =>
    obtain ⟨function, f, bucket, offset, fallback, ⟨partitionBy, orderBy, frame⟩⟩ := w
    simp only [Expr.render, WindowCall.render, WindowCall.renderOver, renderOrder_eq,
      Render.bind_ok_iff, Render.lift_eq, Render.result_ofExcept, Render.result_pure,
      Except.ok.injEq] at success
    obtain ⟨call, called, _, ⟨partitioned, partition, ordered, order, framed, frame, rfl⟩, rfl⟩ :=
      success
    obtain ⟨items, rfl, rfl, each⟩ := WindowCall.orderParts_ok order
    refine .window (WindowCall.renderCall_ok called) partition rfl (fun o member => ?_) frame
    exact below (.ordered o.1) (by simpa [Expr.parts] using ⟨_, member⟩) c o.2 (each o member)
  | binary f op p =>
    simp only [Expr.render, renderBinary, Render.bind_ok_iff, Render.lift_eq,
      Render.result_ofExcept, Context.param_ok_iff] at success
    obtain ⟨column, columned, _, ⟨styled, rfl⟩, joined⟩ := success
    exact .binary columned styled joined

theorem Condition.renders {x : Condition} {scope : Scope} {nested : Bool}
    (below : ∀ p ∈ x.parts, p.Derivable)
    (success : (x.render c scope nested).result = .ok s) :
    Renders c (.condition scope nested x) s := by
  cases x with
  | simple f op param =>
    simp only [Condition.render, renderSimple, Render.bind_ok_iff, Render.lift_eq,
      Render.result_ofExcept] at success
    obtain ⟨column, columned, success⟩ := success
    split at success
    · rename_i unary
      cases param with
      | none =>
        simp only [Option.isSome_none, Bool.false_eq_true, ↓reduceIte, Render.result_pure,
          Except.ok.injEq] at success
        subst success
        exact .null columned unary
      | some p => simp at success
    · rename_i binary
      split at success
      · simp at success
      · rename_i takes
        cases param with
        | none => simp at success
        | some p =>
          simp only [Render.bind_ok_iff, Context.param_ok_iff, Render.result_pure,
            Except.ok.injEq] at success
          obtain ⟨_, ⟨styled, rfl⟩, rfl⟩ := success
          exact .simple columned (by simpa using binary) (by simpa using takes) styled
  | group op items =>
    have member : ∀ item ∈ items, (Part.condition item).Derivable := fun item member =>
      below _ (by simpa [Condition.parts] using member)
    obtain _ | ⟨only, _ | ⟨second, rest⟩⟩ := items
    · simp [Condition.render] at success
    · simp only [Condition.render] at success
      exact .only (member only List.mem_cons_self c scope nested s success)
    · simp only [Condition.render, renderGroup, renderItems_eq, Render.bind_ok_iff,
        Render.result_pure, Except.ok.injEq] at success
      obtain ⟨parts, all, rfl⟩ := success
      obtain ⟨pairs, listed, rfl, each⟩ := Render.exists_pairs_of_all all
      have several : 2 ≤ pairs.length := by
        have := congrArg List.length listed
        simp at this
        omega
      rw [listed] at member ⊢
      exact .group several fun x inside =>
        member x.1 (List.mem_map_of_mem inside) c scope true x.2 (each x inside)
  | fieldComparison left op right =>
    simp only [Condition.render, renderFieldComparison, Render.result_ofExcept] at success
    split at success
    · rename_i comparing
      simp only [Except.bind_eq_ok, pure, Except.pure, Except.ok.injEq] at success
      obtain ⟨l, first, r, second, rfl⟩ := success
      exact .fieldComparison comparing first second
    · simp at success
  | subquery f op q =>
    simp only [Condition.render, renderSubquery, Render.bind_ok_iff, Render.lift_eq,
      Render.result_ofExcept, Render.result_pure, Except.ok.injEq] at success
    obtain ⟨left, started, _, reading, child, entered, text, inner, rfl⟩ := success
    exact .subquery started reading entered
      (below (.query q) (by simp [Condition.parts]) child text inner)
  | between f low high negated =>
    simp only [Condition.render, renderBetween, Render.bind_ok_iff, Render.lift_eq,
      Render.result_ofExcept, Context.param_ok_iff, Render.result_pure, Except.ok.injEq] at success
    obtain ⟨column, columned, _, ⟨styled, rfl⟩, _, ⟨_, rfl⟩, rfl⟩ := success
    exact .between columned styled
  | aggregate kind f op p =>
    simp only [Condition.render, renderAggregateCondition] at success
    split at success
    · simp at success
    · rename_i having
      split at success
      · simp at success
      · rename_i comparing
        simp only [renderAggregate, Render.bind_ok_iff, Render.lift_eq, Render.result_ofExcept,
          Context.param_ok_iff, Render.result_pure, Except.ok.injEq] at success
        obtain ⟨_, ⟨column, columned, rfl⟩, _, ⟨styled, rfl⟩, rfl⟩ := success
        obtain rfl : scope = .having := by simpa using having
        exact .aggregateCondition (by simpa using comparing) columned styled
  | expression e op p =>
    simp only [Condition.render, renderExpressionCondition] at success
    split at success
    · simp at success
    · rename_i comparing
      split at success
      · simp at success
      · rename_i placed
        simp only [Render.bind_ok_iff, Context.param_ok_iff, Render.result_pure,
          Except.ok.injEq] at success
        obtain ⟨left, computed, _, ⟨styled, rfl⟩, rfl⟩ := success
        refine .expression (by cases h : op.isComparison <;> simp_all) ?_
          (below (.expr e) (by simp [Condition.parts]) c left computed) styled
        intro aggregate
        simpa [aggregate] using placed

theorem Query.renders {q : Query} (below : ∀ p ∈ q.parts, p.Derivable)
    (success : (q.render c).result = .ok s) : Renders c (.query q) s := by
  have projects : ∀ f ∈ q.fields, (Part.projected f).Derivable := fun f member =>
    below _ (by simp [Query.parts, member])
  have joins : ∀ j ∈ q.joins, (Part.join j).Derivable := fun j member =>
    below _ (by simp [Query.parts, member])
  have filters : ∀ x ∈ q.filter, (Part.condition x).Derivable := fun x member =>
    below _ (by simp [Query.parts, Option.mem_def.mp member])
  have havings : ∀ x ∈ q.having, (Part.condition x).Derivable := fun x member =>
    below _ (by simp [Query.parts, Option.mem_def.mp member])
  have orders : ∀ o ∈ q.orderBy, (Part.ordered o).Derivable := fun o member =>
    below _ (by simp [Query.parts, member])
  have values : ∀ a ∈ q.assignments, (Part.assignment a).Derivable := fun a member =>
    below _ (by simp [Query.parts, member])
  rw [renderQuery_eq, renderOperation] at success
  cases operation : q.operation <;> simp only [operation] at success
  case select =>
    simp only [renderSelect, Render.bind_ok_iff, Render.lift_eq, Render.result_ofExcept,
      Render.result_pure, Except.ok.injEq] at success
    obtain ⟨_, clauses, _, rules, distinct, distinctly, _, projected, lock, locks, _, joined, _,
      filtered, groupBy, groups, _, had, _, sorted, rfl⟩ := success
    obtain ⟨fieldPairs, fieldsListed, rfl, eachField⟩ := renderProjection_ok projected
    obtain ⟨joinPairs, joinsListed, rfl, eachJoin⟩ := renderJoins_ok joined
    obtain ⟨filterPair, filterGiven, rfl, filterMade⟩ := renderConditional_ok filtered
    obtain ⟨havingPair, havingGiven, rfl, havingMade⟩ := renderConditional_ok had
    obtain ⟨orderPairs, itemsListed, rfl, eachItem⟩ := renderOrderClause_ok sorted
    rw [fieldsListed] at projects
    rw [joinsListed] at joins
    rw [filterGiven] at filters
    rw [havingGiven] at havings
    rw [itemsListed] at orders
    exact .select operation clauses rules distinctly fieldsListed
      (fun f member => projects _ (List.mem_map_of_mem member) c f.2 (eachField f member))
      locks joinsListed
      (fun j member => joins _ (List.mem_map_of_mem member) c j.2 (eachJoin j member))
      filterGiven
      (fun x member => filters _ (Option.mem_map_of_mem _ member) c _ _ x.2 (filterMade x member))
      groups havingGiven
      (fun x member => havings _ (Option.mem_map_of_mem _ member) c _ _ x.2 (havingMade x member))
      itemsListed
      (fun o member => orders _ (List.mem_map_of_mem member) c o.2 (eachItem o member))
  case count =>
    simp only [renderCount, Render.bind_ok_iff, Render.lift_eq, Render.result_ofExcept,
      Render.result_pure, Except.ok.injEq] at success
    obtain ⟨_, clauses, _, joined, _, filtered, rfl⟩ := success
    obtain ⟨joinPairs, joinsListed, rfl, eachJoin⟩ := renderJoins_ok joined
    obtain ⟨filterPair, filterGiven, rfl, filterMade⟩ := renderConditional_ok filtered
    rw [joinsListed] at joins
    rw [filterGiven] at filters
    exact .count operation clauses joinsListed
      (fun j member => joins _ (List.mem_map_of_mem member) c j.2 (eachJoin j member))
      filterGiven
      (fun x member => filters _ (Option.mem_map_of_mem _ member) c _ _ x.2 (filterMade x member))
  case insert =>
    simp only [renderInsert, Render.bind_ok_iff, Render.lift_eq, Render.result_ofExcept,
      Render.result_pure, Except.ok.injEq] at success
    obtain ⟨_, clauses, first, shaped, tuples, all, output, outputs, upsert, upserts, returning,
      returns, rfl⟩ := success
    obtain ⟨styled, rfl⟩ := renderTuples_ok shaped all
    exact .insert operation clauses shaped styled outputs (renderUpsert_ok upserts) returns
  case update =>
    simp only [renderUpdate, Render.bind_ok_iff, Render.lift_eq, Render.result_ofExcept] at success
    obtain ⟨_, clauses, success⟩ := success
    split at success
    · simp at success
    · rename_i some
      simp only [Render.bind_ok_iff, Render.result_ofExcept, Render.result_pure,
        Except.ok.injEq] at success
      obtain ⟨_, set, output, outputs, _, filtered, returning, returns, rfl⟩ := success
      obtain ⟨sets, setsListed, each, unrepeated, rfl⟩ :=
        renderAssignments_ok (fun a : Assignment => a.field) set
      obtain ⟨filterPair, filterGiven, rfl, filterMade⟩ := renderConditional_ok filtered
      rw [setsListed] at values
      rw [filterGiven] at filters
      exact .update operation clauses (by rintro rfl; simp [setsListed] at some) setsListed
        (fun a member => values _ (List.mem_map_of_mem member) c a.2 (each a member).2)
        (fun a member => (each a member).1) unrepeated outputs filterGiven
        (fun x member => filters _ (Option.mem_map_of_mem _ member) c _ _ x.2 (filterMade x member))
        returns
  case delete =>
    simp only [renderDelete, Render.bind_ok_iff, Render.lift_eq, Render.result_ofExcept,
      Render.result_pure, Except.ok.injEq] at success
    obtain ⟨_, clauses, output, outputs, _, filtered, returning, returns, rfl⟩ := success
    obtain ⟨filterPair, filterGiven, rfl, filterMade⟩ := renderConditional_ok filtered
    rw [filterGiven] at filters
    exact .delete operation clauses outputs filterGiven
      (fun x member => filters _ (Option.mem_map_of_mem _ member) c _ _ x.2 (filterMade x member))
      returns

theorem FieldExpr.renders {f : FieldExpr} (below : ∀ p ∈ (Part.projected f).parts, p.Derivable)
    (success : ((Node.projected f).render c).result = .ok s) : Renders c (.projected f) s := by
  obtain ⟨e, output⟩ := f
  simp only [Node.render, renderFieldExpr, Render.bind_ok_iff] at success
  obtain ⟨text, made, success⟩ := success
  have plain : Renders c (.expr e) text := below (.expr e) (by simp [Part.parts]) c text made
  cases output with
  | none =>
    simp only [Render.result_pure, Except.ok.injEq] at success
    subst success
    exact .projected plain
  | some output =>
    simp only [Render.result_pure, Except.ok.injEq] at success
    subst success
    exact .aliased plain

theorem OrderBy.renders {o : OrderBy} (below : ∀ p ∈ (Part.ordered o).parts, p.Derivable)
    (success : ((Node.ordered o).render c).result = .ok s) : Renders c (.ordered o) s := by
  obtain ⟨e, direction, nulls⟩ := o
  simp only [Node.render, renderOrderItem, Render.bind_ok_iff] at success
  obtain ⟨text, made, success⟩ := success
  have plain : Renders c (.expr e) text := below (.expr e) (by simp [Part.parts]) c text made
  cases nulls with
  | none =>
    simp only [Render.result_pure, Except.ok.injEq] at success
    subst success
    exact .ordered plain
  | some nulls =>
    simp only [Render.bind_ok_iff, Render.lift_eq, Render.result_ofExcept,
      Dialect.require_ok_iff, Render.result_pure, Except.ok.injEq] at success
    obtain ⟨_, supported, rfl⟩ := success
    exact .orderedNulls plain supported

theorem WhenClause.renders {w : WhenClause} (below : ∀ p ∈ (Part.whenClause w).parts, p.Derivable)
    (success : ((Node.whenClause w).render c).result = .ok s) : Renders c (.whenClause w) s := by
  obtain ⟨x, result⟩ := w
  simp only [Node.render, renderWhen, Render.bind_ok_iff, Context.param_ok_iff,
    Render.result_pure, Except.ok.injEq] at success
  obtain ⟨text, made, _, ⟨styled, rfl⟩, rfl⟩ := success
  have branch : Renders c (.condition .caseWhen false x) text :=
    below (.condition x) (by simp [Part.parts]) c .caseWhen false text made
  exact .whenClause branch styled

theorem Join.renders {j : Join} (below : ∀ p ∈ (Part.join j).parts, p.Derivable)
    (success : ((Node.join j).render c).result = .ok s) : Renders c (.join j) s := by
  obtain ⟨kind, table, on⟩ := j
  simp only [Node.render, renderJoin] at success
  split at success
  · simp at success
  · rename_i formed
    simp only [Render.bind_ok_iff, Render.lift_eq, Render.result_ofExcept,
      Dialect.require_ok_iff] at success
    obtain ⟨_, supported, success⟩ := success
    cases on with
    | none =>
      simp only [Option.map_none, Render.result_pure, Except.ok.injEq] at success
      subst success
      exact .crossJoin (by simpa using formed) supported
    | some on =>
      simp only [Option.map_some, Render.bind_ok_iff, Render.result_pure,
        Except.ok.injEq] at success
      obtain ⟨text, made, rfl⟩ := success
      have condition : Renders c (.condition .joinOn false on) text :=
        below (.condition on) (by simp [Part.parts]) c .joinOn false text made
      exact .join (by simpa using formed) supported condition

theorem Assignment.renders {a : Assignment} (below : ∀ p ∈ (Part.assignment a).parts, p.Derivable)
    (success : ((Node.assigned a.value).render c).result = .ok s) :
    Renders c (.assigned a.value) s := by
  obtain ⟨target, value⟩ := a
  cases value with
  | param p =>
    obtain ⟨styled, rfl⟩ := Context.param_ok_iff.mp success
    exact .assignedParam styled
  | expr e =>
    simp only [Node.render, renderAssigned, Render.bind_ok_iff, Render.lift_eq,
      Render.result_ofExcept] at success
    obtain ⟨_, admitted, made⟩ := success
    exact .assignedExpr admitted (below (.expr e) (by simp [Part.parts]) c s made)

theorem Part.derivable : ∀ p : Part, p.Derivable := by
  -- rendering recurs over nested lists, so the induction is on how deep a constituent reaches
  refine Part.induction fun p below => ?_
  cases p with
  | expr e => exact fun c s success => e.renders below success
  | condition x => exact fun c scope nested s success => x.renders below success
  | query q => exact fun c s success => q.renders below success
  | projected f => exact fun c s success => f.renders below success
  | ordered o => exact fun c s success => o.renders below success
  | whenClause w => exact fun c s success => w.renders below success
  | join j => exact fun c s success => j.renders below success
  | assignment a => exact fun c s success => a.renders below success
  | _ => trivial

end Backward

theorem Query.renders_of_ok {q : Query} {c : Context} {s : Sql}
    (success : (q.render c).result = .ok s) : Renders c (.query q) s :=
  (Part.query q).derivable c s success

end TypedSql
