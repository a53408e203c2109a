import TypedSql.Proofs.Render.Statement
import TypedSql.Proofs.Tree.Names

namespace TypedSql

/-- The names that are written between quotes: all but the keys of JSON paths, which become
    literals or parts of one. -/
def Shown (names : List Occurrence) (o : Occurrence) : Prop := o ∈ names ∧ o.1 ≠ .jsonKey

section Shown
variable {o : Occurrence}

@[simp] theorem shown_nil : Shown [] o ↔ False := by simp [Shown]

@[simp] theorem shown_append (first rest : List Occurrence) :
    Shown (first ++ rest) o ↔ Shown first o ∨ Shown rest o := by
  simp [Shown, or_and_right]

theorem shown_flatMap {α : Type} (f : α → List Occurrence) (xs : List α) :
    Shown (xs.flatMap f) o ↔ ∃ x ∈ xs, Shown (f x) o := by
  constructor
  · rintro ⟨member, written⟩
    obtain ⟨x, inside, found⟩ := List.mem_flatMap.mp member
    exact ⟨x, inside, found, written⟩
  · rintro ⟨x, inside, found, written⟩
    exact ⟨List.mem_flatMap.mpr ⟨x, inside, found⟩, written⟩

theorem shown_columns (names : List String) :
    Shown (names.map fun n => (.field, n)) o ↔ ∃ n ∈ names, o = (.field, n) := by
  constructor
  · rintro ⟨member, -⟩
    obtain ⟨n, inside, rfl⟩ := List.mem_map.mp member
    exact ⟨n, inside, rfl⟩
  · rintro ⟨n, inside, rfl⟩
    exact ⟨List.mem_map_of_mem inside, by simp⟩

end Shown

/-- The conflict as it is written. Where conflicts are resolved by any key, there is no place
    for a target. -/
def OnConflict.written (d : Dialect) (conflict : OnConflict) : OnConflict :=
  if d.upsertStyle = .onDuplicateKey then { conflict with target := [] } else conflict

def Query.written (d : Dialect) (q : Query) : Query :=
  { q with onConflict := q.onConflict.map (OnConflict.written d) }

def Statement.written (d : Dialect) : Statement → Statement
  | .query q => .query (q.written d)
  | .compound q => .compound q

def Node.occurrences (d : Dialect) : Node → List Occurrence
  | .expr e => e.occurrences
  | .projected f => f.occurrences
  | .ordered o => o.expr.occurrences
  | .whenClause w => w.condition.occurrences
  | .condition _ _ x => x.occurrences
  | .join j => j.occurrences
  | .assigned v => v.occurrences
  | .query q => (q.written d).occurrences

section Views

@[simp] theorem Sql.names_append (s t : Sql) : (s ++ t).names = s.names ++ t.names :=
  List.filterMap_append

@[simp] theorem Sql.names_nil : Sql.names [] = [] := rfl

@[simp] theorem Sql.names_sql (t : String) : (sql t).names = [] := rfl

@[simp] theorem Sql.names_text_cons (t : String) (s : Sql) :
    Sql.names (.text t :: s) = s.names := rfl

@[simp] theorem Sql.names_name_cons (kind : NameKind) (n : String) (s : Sql) :
    Sql.names (.name kind n :: s) = (kind, n) :: s.names := rfl

@[simp] theorem Context.names_placeholder (c : Context) (p : Param) :
    (c.placeholder p).names = [] := rfl

@[simp] theorem Sql.names_commaList (parts : List Sql) :
    (Sql.commaList parts).names = parts.flatMap Sql.names := filterMap_commaList parts

@[simp] theorem Sql.names_join (separator : String) (parts : List Sql) :
    (Sql.join separator parts).names = parts.flatMap Sql.names := filterMap_join separator parts

@[simp] theorem Sql.names_parenthesised (s : Sql) : (Sql.parenthesised s).names = s.names :=
  filterMap_parenthesised s

@[simp] theorem Sql.names_flatten (parts : List Sql) :
    Sql.names parts.flatten = parts.flatMap Sql.names := by
  rw [Sql.names, List.filterMap_flatten, List.flatMap_def]
  rfl

@[simp] theorem names_compareSides (d : Dialect) (left right : Sql) (op : Operator) :
    (compareSides d left op right).names = left.names ++ right.names :=
  filterMap_compareSides d left right op

theorem names_binary {d : Dialect} {left right s : Sql} {op : BinaryOp}
    (made : d.binary left op right = .ok s) : s.names = left.names ++ right.names :=
  filterMap_binary d left right made

theorem names_mathCall {d : Dialect} {call : MathCall} {p : Param}
    (given : call.argument? = .ok (some p)) (left right : Sql) :
    (d.mathCall call.function left (some right)).names = left.names ++ right.names :=
  filterMap_mathCall_some d left right (MathCall.function_of_argument given)

theorem names_mathCall_none (d : Dialect) (left : Sql) (function : MathFunction) :
    (d.mathCall function left none).names = left.names := filterMap_mathCall_none d left function

@[simp] theorem Table.mem_names (t : Table) (o : Occurrence) :
    o ∈ t.render.names ↔ Shown t.occurrences o := by
  rw [Sql.names, filterMap_tableRender]
  simp only [Table.occurrences, Shown, Piece.occurrence?_name, Option.toList_some,
    List.mem_singleton]
  exact ⟨by rintro rfl; simp, And.left⟩

end Views

section Clauses
variable {d : Dialect} {o : Occurrence}

theorem Field.mem_column {f : Field} : o ∈ f.column.names ↔ Shown f.occurrences o := by
  obtain ⟨name, qualifier, path⟩ := f
  have keys : ∀ path : JsonPath, ¬ Shown path.occurrences o := by
    rintro ⟨segments, asText⟩ ⟨member, written⟩
    obtain ⟨segment, -, found⟩ := List.mem_flatMap.mp member
    cases segment <;> simp [PathSegment.occurrences] at found
    exact written (by rw [found])
  have nothing : ¬ Shown (path.elim [] JsonPath.occurrences) o := by
    cases path with
    | none => simp
    | some path => exact keys path
  rw [Field.occurrences, shown_append, or_iff_left nothing]
  rcases qualifier with _ | table | letter <;>
    simp only [Field.column, Shown, Qualifier.occurrences, Option.elim, Sql.names_name_cons,
      Sql.names_text_cons, Sql.names_nil, List.mem_append, List.mem_cons, List.not_mem_nil,
      or_false]
  · constructor
    · rintro rfl; simp
    · exact And.left
  · constructor
    · rintro (rfl | rfl) <;> simp
    · exact fun found => found.1.symm
  · constructor
    · rintro rfl; simp
    · exact And.left

theorem Field.mem_columns {fields : List Field} :
    o ∈ fields.flatMap (fun f => f.column.names) ↔ Shown (fields.flatMap Field.occurrences) o := by
  simp only [shown_flatMap, List.mem_flatMap, Field.mem_column]

theorem Field.mem_render {f : Field} {s : Sql} (made : f.render d = .ok s) :
    o ∈ s.names ↔ Shown f.occurrences o := by
  rw [Sql.names, filterMap_field made]
  exact Field.mem_column

theorem Operand.mem_render {x : Operand} {c : Context} {s : Sql}
    (made : (x.render c).result = .ok s) : o ∈ s.names ↔ Shown x.occurrences o := by
  cases x with
  | field f => exact Field.mem_render made
  | param p =>
    obtain ⟨-, rfl⟩ := Context.param_ok_iff.mp made
    simp [Operand.occurrences]

theorem mem_optionalColumn {f : Option Field} :
    o ∈ (f.toList.flatMap fun g => g.column.names) ↔ Shown (f.elim [] Field.occurrences) o := by
  cases f with
  | none => simp
  | some g => simpa using Field.mem_column

theorem mem_aggregateField {kind : AggregateKind} {f : Option Field} {missing : Missing}
    {column : Option Sql} (made : aggregateField d kind f missing = .ok column) (t : String) :
    o ∈ Sql.names (column.getD (sql t)) ↔ Shown (f.elim [] Field.occurrences) o := by
  rw [Sql.names, filterMap_aggregateField made]
  exact mem_optionalColumn

theorem mem_subqueryLeft {c : Context} {f : Option Field} {op : Operator} {s : Sql}
    (made : subqueryLeft c f op = .ok s) : o ∈ s.names ↔ Shown (f.elim [] Field.occurrences) o := by
  rw [Sql.names, filterMap_subqueryLeft made]
  exact mem_optionalColumn

theorem mem_distinct {q : Query} {s : Sql} (rules : q.checkSelect = .ok ())
    (made : renderDistinct d q.distinct q.distinctOn = .ok s) :
    o ∈ s.names ↔ Shown (q.distinctOn.flatMap Field.occurrences) o := by
  have exclusive : q.distinct = true → q.distinctOn = [] := by
    intro given
    unfold Query.checkSelect at rules
    split at rules
    · cases rules
    · rename_i both
      simpa [given] using both
  rw [Sql.names, filterMap_distinct exclusive made]
  exact Field.mem_columns

theorem mem_groupBy {groupBy : List Field} {s : Sql} (made : renderGroupBy d groupBy = .ok s) :
    o ∈ s.names ↔ Shown (groupBy.flatMap Field.occurrences) o := by
  rw [Sql.names, filterMap_groupBy made]
  exact Field.mem_columns

theorem mem_partition {partitionBy : List Field} {parts : List Sql}
    (made : WindowCall.partitionParts d partitionBy = .ok parts) :
    o ∈ parts.flatMap Sql.names ↔ Shown (partitionBy.flatMap Field.occurrences) o := by
  have columns : parts.flatMap Sql.names = partitionBy.flatMap fun f => f.column.names :=
    filterMap_partition made
  rw [columns]
  exact Field.mem_columns

theorem mem_reported {source : OutputSource} {returning : List Field} {output trailing : Sql}
    (outputs : renderOutput d source returning = .ok output)
    (returns : renderReturning d returning = .ok trailing) :
    (o ∈ output.names ∨ o ∈ trailing.names) ↔ Shown (returning.flatMap Field.occurrences) o := by
  rw [Sql.names, Sql.names, filterMap_output outputs, filterMap_returning returns,
    ← Field.mem_columns]
  rcases renderReturning_ok returns with ⟨rfl, -⟩ | ⟨style, -⟩ | ⟨style, -⟩
  · simp
  · simp only [style, ↓reduceIte, reduceCtorEq, List.not_mem_nil, or_false]
    rfl
  · simp only [style, ↓reduceIte, reduceCtorEq, List.not_mem_nil, false_or]
    rfl

end Clauses

section Upsert
variable {c : Context} {o : Occurrence}

theorem mem_target {target : List Field} {s : Sql} (made : renderTarget target = .ok s) :
    o ∈ s.names ↔ Shown (target.flatMap Field.occurrences) o := by
  rw [Sql.names, filterMap_target made]
  exact Field.mem_columns

theorem mem_conflictSets {rejected : String → Sql}
    (repeats : ∀ column, (rejected column).names = [(.field, column)])
    (updates : NameMap ConflictValue) :
    o ∈ (conflictSets c rejected updates).names ↔
      Shown (updates.names.map fun n => (.field, n)) o := by
  have each : ∀ u, o ∈ (conflictSetSql c rejected u).names ↔ o = (.field, u.1) := by
    rintro ⟨column, value⟩
    cases value <;> simp [conflictSetSql, repeats]
  simp only [conflictSets, Sql.names_commaList, List.flatMap_map, List.mem_flatMap, each,
    shown_columns, NameMap.names, List.mem_map, exists_exists_and_eq_and]

theorem Upserts.mem_names {conflict : Option OnConflict} {s : Sql}
    (upserts : Upserts c conflict s) :
    o ∈ s.names ↔
      Shown ((conflict.map (OnConflict.written c.dialect)).elim [] OnConflict.occurrences) o := by
  have excluded : ∀ column, (excludedColumn column).names = [(.field, column)] := fun _ => rfl
  have values : ∀ column, (valuesColumn column).names = [(.field, column)] := fun _ => rfl
  cases upserts with
  | none => simp
  | skip targeted written =>
    simp [OnConflict.written, targeted, OnConflict.occurrences, ConflictAction.occurrences,
      mem_target written]
  | update targeted written =>
    simp [OnConflict.written, targeted, OnConflict.occurrences, ConflictAction.occurrences,
      mem_target written, mem_conflictSets excluded]
  | ignore keyed =>
    simp [OnConflict.written, keyed, OnConflict.occurrences, ConflictAction.occurrences]
  | duplicate keyed =>
    simp [OnConflict.written, keyed, OnConflict.occurrences, ConflictAction.occurrences,
      mem_conflictSets values]

end Upsert

theorem WindowCall.Calls.mem_names {c : Context} {w : WindowCall} {call : Sql} {o : Occurrence}
    (calls : w.Calls c call) : o ∈ call.names ↔ Shown (w.field.elim [] Field.occurrences) o := by
  cases calls with
  | ranking checked ranks bare => simp [bare]
  | ntile checked tiles bare given styled => simp [bare]
  | shift checked shifted given columned styled =>
    have silent : (w.shifts c).flatMap Sql.names = [] := by
      unfold WindowCall.shifts
      cases w.offset <;> cases w.fallback <;> simp
    simp [silent, given, Field.mem_render columned]
  | edge checked edged given columned => simp [given, Field.mem_render columned]
  | aggregate checked aggregates columned => simp [mem_aggregateField columned]

section Lists
variable {α : Type} {f : α → List Occurrence} {o : Occurrence} {pairs : List (α × Sql)}
  (each : ∀ p ∈ pairs, o ∈ p.2.names ↔ Shown (f p.1) o)
include each

theorem mem_flatMap_names :
    o ∈ (pairs.map Prod.snd).flatMap Sql.names ↔ Shown ((pairs.map Prod.fst).flatMap f) o := by
  simp only [shown_flatMap, List.mem_flatMap, List.mem_map, exists_exists_and_eq_and]
  exact exists_congr fun p => and_congr_right fun member => each p member

theorem mem_projection :
    o ∈ (projection (pairs.map Prod.snd)).names ↔ Shown ((pairs.map Prod.fst).flatMap f) o := by
  rw [← mem_flatMap_names each]
  cases pairs <;> simp [projection]

theorem mem_orderClause :
    o ∈ (orderClause (pairs.map Prod.snd)).names ↔ Shown ((pairs.map Prod.fst).flatMap f) o := by
  rw [← mem_flatMap_names each]
  cases pairs <;> simp [orderClause]

theorem mem_windowOrder :
    o ∈ (windowOrder (pairs.map Prod.snd)).flatMap Sql.names ↔
      Shown ((pairs.map Prod.fst).flatMap f) o := by
  rw [← mem_flatMap_names each]
  cases pairs <;> simp [windowOrder]

omit each

theorem mem_conditional (keyword : String) {pair : Option (α × Sql)}
    (each : ∀ p ∈ pair, o ∈ p.2.names ↔ Shown (f p.1) o) :
    o ∈ (conditional keyword (pair.map Prod.snd)).names ↔
      Shown ((pair.map Prod.fst).toList.flatMap f) o := by
  cases pair with
  | none => simp [conditional]
  | some p => simp [conditional, each p rfl]

end Lists

theorem shown_rows {rows : List Row} {first : Row} {o : Occurrence}
    (shaped : checkRows rows = .ok first) :
    Shown (rows.flatMap Row.occurrences) o ↔ Shown first.occurrences o := by
  obtain ⟨member, -, same⟩ := checkRows_ok shaped
  rw [shown_flatMap]
  constructor
  · rintro ⟨row, inside, shown⟩
    rwa [Row.occurrences, same row inside] at shown
  · exact fun shown => ⟨first, member, shown⟩

theorem mem_assignments {sets : List (Assignment × Sql)} {o : Occurrence}
    (plain : ∀ a ∈ sets, a.1.field.isPlain = true)
    (values : ∀ a ∈ sets, o ∈ a.2.names ↔ Shown a.1.value.occurrences o) :
    o ∈ (Sql.commaList ((sortAssignments (sets.map fun a => (a.1.field, a.2))).map
        assignmentSql)).names ↔ Shown ((sets.map Prod.fst).flatMap Assignment.occurrences) o := by
  simp only [Sql.names_commaList, List.flatMap_map, shown_flatMap, List.mem_flatMap,
    mem_sortAssignments, List.mem_map, exists_exists_and_eq_and]
  refine exists_congr fun a => and_congr_right fun member => ?_
  have column : Shown a.1.field.occurrences o ↔ o = (.field, a.1.field.name) := by
    have bare := plain a member
    rw [← Field.mem_column, Sql.names, filterMap_plainColumn bare]
    simp
  simp [assignmentSql, Assignment.occurrences, values a member, column]

theorem Renders.clauses {c : Context} {q : Query} {s : Sql} (made : Renders c (.query q) s) :
    q.checkClauses = .ok () := by
  cases made <;> assumption

theorem Query.written_of_reading {q : Query} (d : Dialect) (clauses : q.checkClauses = .ok ())
    (reading : checkSubquery q.operation = .ok ()) : q.written d = q := by
  have reads : q.operation = .select ∨ q.operation = .count := by
    cases operation : q.operation <;> simp_all [checkSubquery]
  obtain ⟨-, -, -, conflict⟩ := Query.reads_only clauses reads
  obtain ⟨⟩ := q
  simp_all [Query.written]

section Queries
variable {c : Context} {q : Query} {o : Occurrence} {fields : List (FieldExpr × Sql)}
  {joins : List (Join × Sql)} {filter having : Option (Condition × Sql)}
  {items : List (OrderBy × Sql)} {sets : List (Assignment × Sql)} {output returning : Sql}

theorem Query.mem_names_select {distinct groupBy : Sql} {lock : Sql × Sql}
    (operation : q.operation = .select) (clauses : q.checkClauses = .ok ())
    (rules : q.checkSelect = .ok ())
    (distinctly : renderDistinct c.dialect q.distinct q.distinctOn = .ok distinct)
    (fieldsListed : q.fields = fields.map Prod.fst)
    (projects : ∀ f ∈ fields, o ∈ f.2.names ↔ Shown f.1.occurrences o)
    (locks : renderLock c.dialect q.lock = .ok lock)
    (joinsListed : q.joins = joins.map Prod.fst)
    (joined : ∀ j ∈ joins, o ∈ j.2.names ↔ Shown j.1.occurrences o)
    (filterGiven : q.filter = filter.map Prod.fst)
    (filters : ∀ x ∈ filter, o ∈ x.2.names ↔ Shown x.1.occurrences o)
    (groups : renderGroupBy c.dialect q.groupBy = .ok groupBy)
    (havingGiven : q.having = having.map Prod.fst)
    (havings : ∀ x ∈ having, o ∈ x.2.names ↔ Shown x.1.occurrences o)
    (itemsListed : q.orderBy = items.map Prod.fst)
    (order : ∀ item ∈ items, o ∈ item.2.names ↔ Shown item.1.expr.occurrences o) :
    o ∈ (q.selectText c distinct (fields.map Prod.snd) lock (joins.map Prod.snd)
        (filter.map Prod.snd) groupBy (having.map Prod.snd) (items.map Prod.snd)).names ↔
      Shown ((Node.query q).occurrences c.dialect) o := by
  -- a clause that the operation has no place for is empty and names nothing
  obtain ⟨rows, sets, returning, conflict⟩ := Query.reads_only clauses (.inl operation)
  have fieldNames := mem_projection (f := FieldExpr.occurrences) projects
  have joinNames := mem_flatMap_names (f := Join.occurrences) joined
  have orderNames := mem_orderClause (f := fun item : OrderBy => item.expr.occurrences) order
  have filterNames := mem_conditional (f := Condition.occurrences) "WHERE" filters
  have havingNames := mem_conditional (f := Condition.occurrences) "HAVING" havings
  have hints : Sql.names lock.1 = [] ∧ Sql.names lock.2 = [] := filterMap_lock locks
  simp only [selectText, Sql.names_append, Sql.names_sql, Sql.names_flatten, List.mem_append,
    fieldNames, joinNames, orderNames, filterNames, havingNames, mem_distinct rules distinctly,
    mem_groupBy groups, hints, Table.mem_names, ← fieldsListed, ← joinsListed, ← itemsListed,
    ← filterGiven, ← havingGiven]
  rw [Node.occurrences, Query.occurrences_eq]
  simp [Query.written, rows, sets, returning, conflict]
  -- the text has the clauses in another order than the document
  simp only [or_comm, or_left_comm, or_assoc]

theorem Query.mem_names_count (operation : q.operation = .count)
    (clauses : q.checkClauses = .ok ()) (joinsListed : q.joins = joins.map Prod.fst)
    (joined : ∀ j ∈ joins, o ∈ j.2.names ↔ Shown j.1.occurrences o)
    (filterGiven : q.filter = filter.map Prod.fst)
    (filters : ∀ x ∈ filter, o ∈ x.2.names ↔ Shown x.1.occurrences o) :
    o ∈ (q.countText (joins.map Prod.snd) (filter.map Prod.snd)).names ↔
      Shown ((Node.query q).occurrences c.dialect) o := by
  obtain ⟨rows, sets, returning, conflict⟩ := Query.reads_only clauses (.inr operation)
  obtain ⟨distinctOn, fields, groupBy, having, orderBy⟩ :=
    Query.selects_nothing clauses (by simp [operation])
  have joinNames := mem_flatMap_names (f := Join.occurrences) joined
  have filterNames := mem_conditional (f := Condition.occurrences) "WHERE" filters
  simp only [countText, Sql.names_append, Sql.names_sql, Sql.names_flatten, List.mem_append,
    joinNames, filterNames, Table.mem_names, ← joinsListed, ← filterGiven]
  rw [Node.occurrences, Query.occurrences_eq]
  simp [Query.written, rows, sets, returning, conflict, distinctOn, fields, groupBy, having,
    orderBy, or_assoc]

theorem Query.mem_names_insert {first : Row} {upsert : Sql} (operation : q.operation = .insert)
    (clauses : q.checkClauses = .ok ()) (shaped : checkRows q.rows = .ok first)
    (outputs : renderOutput c.dialect .inserted q.returning = .ok output)
    (upserts : Upserts c q.onConflict upsert)
    (returns : renderReturning c.dialect q.returning = .ok returning) :
    o ∈ (q.insertText c first output upsert returning).names ↔
      Shown ((Node.query q).occurrences c.dialect) o := by
  obtain ⟨filter, sets⟩ := Query.inserts_only clauses operation
  obtain ⟨distinctOn, fields, groupBy, having, orderBy⟩ :=
    Query.selects_nothing clauses (by simp [operation])
  obtain ⟨joins, -⟩ := Query.joins_nothing clauses (by simp [operation]) (by simp [operation])
  -- the text names the columns of the first row, the document those of all
  have columns : o ∈ (Sql.commaList (first.names.map fun column => [.name .field column])).names ↔
      Shown first.occurrences o := by
    rw [Row.occurrences, shown_columns]
    simp [List.flatMap_map]
  have tuples : (Sql.commaList (q.rows.map (tuple c))).names = [] := by
    simp [List.flatMap_map, tuple]
  have reported := mem_reported (o := o) outputs returns
  simp only [insertText, Sql.names_append, Sql.names_sql, List.mem_append, Table.mem_names, columns,
    tuples, upserts.mem_names]
  rw [Node.occurrences, Query.occurrences_eq]
  simp [Query.written, filter, sets, distinctOn, fields, groupBy, having, orderBy, joins,
    ← reported, shown_rows shaped]
  simp only [or_comm, or_left_comm, or_assoc]

theorem Query.mem_names_update (operation : q.operation = .update)
    (clauses : q.checkClauses = .ok ()) (setsListed : q.assignments = sets.map Prod.fst)
    (values : ∀ a ∈ sets, o ∈ a.2.names ↔ Shown a.1.value.occurrences o)
    (plain : ∀ a ∈ sets, a.1.field.isPlain = true)
    (outputs : renderOutput c.dialect .inserted q.returning = .ok output)
    (filterGiven : q.filter = filter.map Prod.fst)
    (filters : ∀ x ∈ filter, o ∈ x.2.names ↔ Shown x.1.occurrences o)
    (returns : renderReturning c.dialect q.returning = .ok returning) :
    o ∈ (q.updateText (sets.map fun a => (a.1.field, a.2)) output (filter.map Prod.snd)
        returning).names ↔
      Shown ((Node.query q).occurrences c.dialect) o := by
  obtain ⟨rows, conflict⟩ := Query.inserts_nothing clauses (.inl operation)
  obtain ⟨distinctOn, fields, groupBy, having, orderBy⟩ :=
    Query.selects_nothing clauses (by simp [operation])
  obtain ⟨joins, -⟩ := Query.joins_nothing clauses (by simp [operation]) (by simp [operation])
  have setNames := mem_assignments plain values
  have filterNames := mem_conditional (f := Condition.occurrences) "WHERE" filters
  have reported := mem_reported (o := o) outputs returns
  simp only [updateText, Sql.names_append, Sql.names_sql, List.mem_append, Table.mem_names, setNames,
    filterNames, ← setsListed, ← filterGiven]
  rw [Node.occurrences, Query.occurrences_eq]
  simp [Query.written, rows, conflict, distinctOn, fields, groupBy, having, orderBy, joins,
    ← reported]
  simp only [or_comm, or_left_comm, or_assoc]

theorem Query.mem_names_delete (operation : q.operation = .delete)
    (clauses : q.checkClauses = .ok ())
    (outputs : renderOutput c.dialect .deleted q.returning = .ok output)
    (filterGiven : q.filter = filter.map Prod.fst)
    (filters : ∀ x ∈ filter, o ∈ x.2.names ↔ Shown x.1.occurrences o)
    (returns : renderReturning c.dialect q.returning = .ok returning) :
    o ∈ (q.deleteText output (filter.map Prod.snd) returning).names ↔
      Shown ((Node.query q).occurrences c.dialect) o := by
  obtain ⟨rows, conflict⟩ := Query.inserts_nothing clauses (.inr operation)
  obtain ⟨distinctOn, fields, groupBy, having, orderBy⟩ :=
    Query.selects_nothing clauses (by simp [operation])
  obtain ⟨joins, -⟩ := Query.joins_nothing clauses (by simp [operation]) (by simp [operation])
  have sets := Query.assigns_nothing clauses operation
  have filterNames := mem_conditional (f := Condition.occurrences) "WHERE" filters
  have reported := mem_reported (o := o) outputs returns
  simp only [deleteText, Sql.names_append, Sql.names_sql, List.mem_append, Table.mem_names,
    filterNames, ← filterGiven]
  rw [Node.occurrences, Query.occurrences_eq]
  simp [Query.written, rows, conflict, distinctOn, fields, groupBy, having, orderBy, joins, sets,
    ← reported]
  simp only [or_comm, or_left_comm, or_assoc]

end Queries

theorem Renders.mem_names {c : Context} {n : Node} {s : Sql} (made : Renders c n s)
    (o : Occurrence) : o ∈ s.names ↔ Shown (n.occurrences c.dialect) o := by
  induction made with
  | field columned => exact Field.mem_render columned
  | aggregate columned =>
    simp [Node.occurrences, Expr.occurrences, optionalOccurrences, mem_aggregateField columned]
  | filtered columned native _ ih =>
    simp [Node.occurrences, Expr.occurrences, optionalOccurrences, mem_aggregateField columned, ih]
  | chosen columned rewritten _ ih =>
    simp [Node.occurrences, Expr.occurrences, optionalOccurrences, mem_aggregateField columned, ih,
      or_comm]
  | case branched _ ih =>
    have each := mem_flatMap_names (f := fun w : WhenClause => w.condition.occurrences) ih
    simp [Node.occurrences, Expr.occurrences, whenOccurrences_eq, each]
  | caseElse branched _ styled ih =>
    have each := mem_flatMap_names (f := fun w : WhenClause => w.condition.occurrences) ih
    simp [Node.occurrences, Expr.occurrences, whenOccurrences_eq, each]
  | coalesce several rendered =>
    have each := mem_flatMap_names (f := Operand.occurrences)
      fun x member => Operand.mem_render (o := o) (rendered x member)
    simp [Node.occurrences, Expr.occurrences, each]
  | nullIf first second =>
    simp [Node.occurrences, Expr.occurrences, Operand.mem_render first, Operand.mem_render second]
  | math columned argument =>
    simp [Node.occurrences, Expr.occurrences, names_mathCall_none, Field.mem_render columned]
  | mathWith columned argument styled =>
    simp [Node.occurrences, Expr.occurrences, names_mathCall argument, Field.mem_render columned]
  | cast columned typed => simp [Node.occurrences, Expr.occurrences, Field.mem_render columned]
  | @window c w call partitioned framed items called partition listed order frame ih =>
    obtain ⟨function, f, bucket, offset, fallback, ⟨partitionBy, orderBy, _⟩⟩ := w
    have each := mem_windowOrder (f := fun item : OrderBy => item.expr.occurrences) ih
    have silent : framed.flatMap Sql.names = [] := filterMap_frame frame
    dsimp only at listed
    simp [Node.occurrences, Expr.occurrences, orderOccurrences_eq, called.mem_names,
      mem_partition partition, silent, listed, each]
  | binary columned styled joined =>
    simp [Node.occurrences, Expr.occurrences, names_binary joined, Field.mem_render columned]
  | projected _ ih => simpa [Node.occurrences, FieldExpr.occurrences] using ih
  | @aliased c e text output _ ih =>
    have shown : Shown output.occurrences o ↔ o = (.outputAlias, output.name) := by
      constructor
      · exact fun found => by simpa [Alias.occurrences] using found.1
      · rintro rfl
        simp [Shown, Alias.occurrences]
    simp [Node.occurrences, FieldExpr.occurrences, ih, shown]
  | ordered _ ih => simpa [Node.occurrences] using ih
  | orderedNulls _ supported ih => simpa [Node.occurrences] using ih
  | whenClause _ styled ih => simpa [Node.occurrences] using ih
  | null columned unary => simp [Node.occurrences, Condition.occurrences, Field.mem_render columned]
  | simple columned binary takes styled =>
    simp [Node.occurrences, Condition.occurrences, Field.mem_render columned]
  | only _ ih => simpa [Node.occurrences, Condition.occurrences, conditionOccurrences] using ih
  | @group c scope nested op items several _ ih =>
    have each := mem_flatMap_names (f := Condition.occurrences) ih
    cases nested <;> simp [Node.occurrences, Condition.occurrences, conditionOccurrences_eq, each]
  | fieldComparison comparing first second =>
    simp [Node.occurrences, Condition.occurrences, Field.mem_render first, Field.mem_render second]
  | @subquery c scope nested f op q left child text started reading entered inner ih =>
    -- a subquery reads, so it has no conflict target that could go unwritten
    have same := Query.written_of_reading child.dialect inner.clauses reading
    simp [Node.occurrences, Condition.occurrences, mem_subqueryLeft started, ih, same]
  | between columned styled =>
    simp [Node.occurrences, Condition.occurrences, Field.mem_render columned]
  | aggregateCondition comparing columned styled =>
    simp [Node.occurrences, Condition.occurrences, mem_aggregateField columned]
  | expression comparing placed _ styled ih =>
    simpa [Node.occurrences, Condition.occurrences] using ih
  | crossJoin formed supported =>
    simp [Node.occurrences, Join.occurrences, optionalOccurrences]
  | join formed supported _ ih =>
    simp [Node.occurrences, Join.occurrences, optionalOccurrences, ih]
  | assignedParam styled => simp [Node.occurrences, AssignValue.occurrences]
  | assignedExpr admitted _ ih => exact ih
  | select operation clauses rules distinctly fieldsListed _ locks joinsListed _ filterGiven _
      groups havingGiven _ itemsListed _ projects joined filters havings order =>
    exact Query.mem_names_select operation clauses rules distinctly fieldsListed projects locks
      joinsListed joined filterGiven filters groups havingGiven havings itemsListed order
  | count operation clauses joinsListed _ filterGiven _ joined filters =>
    exact Query.mem_names_count operation clauses joinsListed joined filterGiven filters
  | insert operation clauses shaped _ outputs upserts returns =>
    exact Query.mem_names_insert operation clauses shaped outputs upserts returns
  | update operation clauses _ setsListed _ plain _ outputs filterGiven _ returns values filters =>
    exact Query.mem_names_update operation clauses setsListed values plain outputs filterGiven
      filters returns
  | delete operation clauses outputs filterGiven _ returns filters =>
    exact Query.mem_names_delete operation clauses outputs filterGiven filters returns

/-- What is written between quotes are the names of the statement. -/
theorem Statement.Renders.mem_names {c : Context} {statement : Statement} {s : Sql}
    (made : statement.Renders c s) (o : Occurrence) :
    o ∈ s.names ↔ Shown (statement.written c.dialect).occurrences o := by
  cases made with
  | query made => exact made.mem_names o
  | @compound q base parts items several operands first partsListed supported more itemsListed
      order =>
    have whole : ∀ query ∈ q.operands, query.checkClauses = .ok () →
        query.written c.dialect = query := by
      intro query member clauses
      refine Query.written_of_reading c.dialect clauses ?_
      rw [operation_of_checkOperands operands member]
      rfl
    have baseNames : o ∈ base.names ↔ Shown q.base.occurrences o := by
      rw [first.mem_names o, Node.occurrences, whole q.base List.mem_cons_self first.clauses]
    have further : ∀ p ∈ parts, o ∈ (furtherOperand p).names ↔ Shown p.1.query.occurrences o := by
      intro p member
      have operand : p.1.query ∈ q.operands := by
        simp only [CompoundQuery.operands, partsListed, List.mem_cons, List.mem_map]
        exact .inr ⟨p.1, ⟨p, member, rfl⟩, rfl⟩
      simp only [furtherOperand, Sql.names_append, Sql.names_sql, List.nil_append,
        (more p member).mem_names o, Node.occurrences, whole _ operand (more p member).clauses]
    have moreNames : o ∈ (parts.map furtherOperand).flatMap Sql.names ↔
        Shown ((parts.map Prod.fst).flatMap fun part => part.query.occurrences) o := by
      simp only [shown_flatMap, List.mem_flatMap, List.mem_map, exists_exists_and_eq_and]
      exact exists_congr fun p => and_congr_right fun member => further p member
    have orderNames := mem_orderClause (f := fun item : OrderBy => item.expr.occurrences)
      fun item member => (order item member).mem_names o
    simp only [Sql.names_append, Sql.names_flatten, Sql.names_sql, List.mem_append, baseNames,
      moreNames, orderNames, ← partsListed, ← itemsListed, List.not_mem_nil, or_false]
    simp [Statement.written, Statement.occurrences, CompoundQuery.occurrences,
      CompoundQuery.operands, orderOccurrences_eq, List.flatMap_map, or_assoc]

end TypedSql
