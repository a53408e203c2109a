import TypedSql.Proofs.Render.Segments
import TypedSql.Proofs.Render.Statement

namespace TypedSql

section Cases
variable {c : Context} {spell : Hole → String} {q : Query} {fields : List (FieldExpr × Sql)}
  {joins : List (Join × Sql)} {filter having : Option (Condition × Sql)}
  {items : List (OrderBy × Sql)} {sets : List (Assignment × Sql)} {output returning : Sql}

theorem Node.Embeds.window {w : WindowCall} {call : Sql} {partitioned framed : List Sql}
    (marked : SpelledMarked spell) (called : w.Calls c call)
    (partition : WindowCall.partitionParts c.dialect w.window.partitionBy = .ok partitioned)
    (listed : w.window.orderBy = items.map Prod.fst)
    (order : ∀ o ∈ items, (Node.ordered o.1).Embeds spell o.2)
    (frame : WindowCall.frameParts w.window.frame = .ok framed) :
    (Node.expr (.window w)).Embeds spell (call ++ sql " OVER (" ++
      Sql.join " " (partitioned ++ windowOrder (items.map Prod.snd) ++ framed) ++ sql ")") := by
  have partitions : ∀ s ∈ partitioned, s.Embeds noStop spell 0 0 ∅ := by
    rcases WindowCall.partitionParts_ok partition with ⟨-, rfl⟩ | ⟨fields, rendered, rfl⟩
    · simp
    · have fields : fields.Embeds Lexeme.isQueryWord spell 0 0 ∅ := renderFields_embeds rendered
      exact List.forall_mem_singleton.mpr (.led (by decide) (fields.weaken (by simp [noStop])))
  have frames : ∀ s ∈ framed, s.Embeds noStop spell 0 0 ∅ := by
    rw [WindowCall.frameParts_ok frame]
    intro s member
    obtain ⟨f, -, rfl⟩ := List.mem_map.mp member
    exact f.embeds.weaken (by simp [noStop])
  have rows := window_embeds partitions frames order
  refine .expr (.congr ?_
    (((called.embeds marked).linked (by decide) (by decide) (rows.within 0)).closed (by decide)))
  rw [Set.empty_union, ← listed]
  rfl

theorem Node.Embeds.caseElse {whens : List (WhenClause × Sql)} {otherwise : Param}
    (marked : SpelledMarked spell)
    (branches : ∀ w ∈ whens, (Node.whenClause w.1).Embeds spell w.2) :
    (Node.expr (.case ⟨whens.map Prod.fst, some otherwise⟩)).Embeds spell
      (sql "CASE" ++ (whens.map Prod.snd).flatten ++ sql " ELSE " ++ c.placeholder otherwise ++
        sql " END") := by
  obtain ⟨apart, inner⟩ := Sql.Embeds.branches branches
  have opens : (sql "CASE").Embeds isBreak spell 0 0 ∅ := .text (by decide)
  have value : (c.placeholder otherwise).Embeds isBreak spell 0 0 ∅ :=
    .placeholder marked c otherwise
  have last : (sql "CASE" ++ (whens.map Prod.snd).flatten ++ sql " ELSE " ++
      c.placeholder otherwise).Embeds isBreak spell 0 0 _ :=
    (opens.append apart inner).linked (by decide) (by decide) value
  refine .expr (.congr ?_ (last.closed (by decide)))
  rw [Set.empty_union, Set.union_empty]
  rfl

theorem Node.Embeds.aliased {e : Expr} {text : Sql} {output : Alias}
    (plain : (Node.expr e).Embeds spell text) :
    (Node.projected ⟨e, some output⟩).Embeds spell
      (text ++ [.text " AS ", .name .outputAlias output.name]) := by
  have named : Sql.Embeds isBreak spell 0 [.name .outputAlias output.name] 0 ∅ :=
    .of_bare (.single rfl)
  have computed := plain.weaken fun x => isBreak_of_isSeam
  have whole : Sql.Embeds isSeam spell 0
      (text ++ sql " AS " ++ [Piece.name .outputAlias output.name]) 0 _ :=
    computed.linked (by decide) (by decide) (named.weaken fun x => isBreak_of_isSeam)
  rw [List.append_assoc, Set.union_empty] at whole
  show Sql.Embeds isSeam spell 0 _ 0 (Part.projected ⟨e, some output⟩).asked
  rw [Part.asked_projected]
  exact whole

theorem Node.Embeds.whenClause {x : Condition} {text : Sql} {result : Param}
    (marked : SpelledMarked spell)
    (holds : (Node.condition .caseWhen false x).Embeds spell text) :
    (Node.whenClause ⟨x, result⟩).Embeds spell
      (sql " WHEN " ++ text ++ sql " THEN " ++ c.placeholder result) := by
  have value : (c.placeholder result).Embeds isBreak spell 0 0 ∅ := .placeholder marked c result
  have opens : (sql " WHEN " ++ text).Embeds isBreak spell 0 0 (Part.condition x).asked :=
    .led (by decide) holds
  constructor
  · rw [List.append_assoc, List.append_assoc]
    exact Sql.apart_of_opened (by decide)
  · show Sql.Embeds isBreak spell 0 _ 0 (Part.whenClause ⟨x, result⟩).asked
    rw [Part.asked_whenClause, ← Set.union_empty (Part.condition x).asked]
    exact opens.linked (by decide) (by decide) value

theorem Node.Embeds.join {kind : JoinKind} {table : Table} {on : Condition} {text : Sql}
    (matching : (Node.condition .joinOn false on).Embeds spell text) :
    (Node.join ⟨kind, table, some on⟩).Embeds spell
      (sql (" " ++ kind.keyword ++ " JOIN ") ++ table.render ++ sql " ON " ++ text) := by
  have target : table.render.Embeds isBreak spell 0 0 ∅ := table.embeds
  have opens : (sql (" " ++ kind.keyword ++ " JOIN ") ++ table.render).Embeds isBreak spell 0 0 ∅ :=
    .led (by cases kind <;> decide) target
  constructor
  · rw [List.append_assoc, List.append_assoc]
    exact Sql.apart_of_opened (by cases kind <;> decide)
  · refine .congr ?_ (opens.linked (by decide) (by decide) matching)
    simp [Node.asked]

theorem Node.Embeds.between {f : Field} {low high : Param} {negated nested : Bool} {scope : Scope}
    {column : Sql} (marked : SpelledMarked spell) (columned : f.render c.dialect = .ok column) :
    (Node.condition scope nested (.between f low high negated)).Embeds spell
      (column ++ sql (if negated then " NOT BETWEEN " else " BETWEEN ") ++ c.placeholder low ++
        sql " AND " ++ c.placeholder high) := by
  have column : column.Embeds isBreak spell 0 0 ∅ := Field.embeds columned
  have links : embedsOut isBreak (if negated then " NOT BETWEEN " else " BETWEEN ").toList 0 0 =
      true := by
    cases negated <;> decide
  have lower := column.linked links (by cases negated <;> decide) (.placeholder marked c low)
  rw [Set.union_empty] at lower
  exact .condition (.congr (Set.union_empty _)
    (lower.linked (by decide) (by decide) (.placeholder marked c high)))

theorem Node.Embeds.subquery {child : Context} {f : Option Field} {op : Operator} {scope : Scope}
    {nested : Bool} {left text : Sql} (started : subqueryLeft c f op = .ok left)
    (reading : checkSubquery q.operation = .ok ()) (dialect : child.dialect = .sqlServer)
    (inner : Renders child (.query q) text) (embeds : (Node.query q).Embeds spell text) :
    (Node.condition scope nested (.subquery f op q)).Embeds spell
      (left ++ Sql.parenthesised text) := by
  have headed : text.Headed q.operation.opening spell (Part.query q).asked := embeds
  have reading := operation_of_checkSubquery reading
  have opening : q.operation.opening = "SELECT" := by
    rcases reading with operation | operation <;> rw [operation] <;> rfl
  rw [opening] at headed
  have writes : q.Writes spell (text.visible spell) := ⟨reading, child, text, dialect, inner, rfl⟩
  have bracketed : (Sql.parenthesised text).Embeds isBreak spell 0 0
      ({q} ∪ (Part.query q).asked) :=
    headed.parenthesised (.inr ⟨q, rfl, writes⟩) fun other given => by rwa [given]
  have apart : Apart ((Sql.parenthesised text).lexemes spell) := by
    rw [Sql.parenthesised, List.append_assoc]
    exact Sql.apart_of_opened (by decide)
  exact .condition (.congr (Set.empty_union _)
    ((Sql.Embeds.subqueryLeft started).append apart bracketed))

theorem Node.Embeds.select {distinct groupBy : Sql} {lock : Sql × Sql}
    (sqlServer : c.dialect = .sqlServer) (operation : q.operation = .select)
    (clauses : q.checkClauses = .ok ())
    (distinctly : renderDistinct c.dialect q.distinct q.distinctOn = .ok distinct)
    (fieldsListed : q.fields = fields.map Prod.fst)
    (projects : ∀ f ∈ fields, (Node.projected f.1).Embeds spell f.2)
    (locks : renderLock c.dialect q.lock = .ok lock)
    (joinsListed : q.joins = joins.map Prod.fst)
    (joined : ∀ j ∈ joins, (Node.join j.1).Embeds spell j.2)
    (filterGiven : q.filter = filter.map Prod.fst)
    (filters : ∀ x ∈ filter, (Node.condition .whereClause false x.1).Embeds spell x.2)
    (groups : renderGroupBy c.dialect q.groupBy = .ok groupBy)
    (havingGiven : q.having = having.map Prod.fst)
    (havings : ∀ x ∈ having, (Node.condition .having false x.1).Embeds spell x.2)
    (itemsListed : q.orderBy = items.map Prod.fst)
    (order : ∀ o ∈ items, (Node.ordered o.1).Embeds spell o.2) :
    (Node.query q).Embeds spell
      (q.selectText c distinct (fields.map Prod.snd) lock (joins.map Prod.snd)
        (filter.map Prod.snd) groupBy (having.map Prod.snd) (items.map Prod.snd)) := by
  rw [sqlServer] at distinctly locks
  obtain ⟨-, assignments, -, -⟩ := q.reads_only clauses (.inl operation)
  have selected := selected_embeds distinctly projects
  have source := source_embeds locks groups joined filters havings
  obtain ⟨apart, closing⟩ := closing_embeds order q.limit q.offset (!q.orderBy.isEmpty)
  have before : (distinct ++ projection (fields.map Prod.snd) ++ sql " FROM " ++ _).Embeds noStop
      spell 0 0 _ :=
    (selected.weaken (by simp [noStop])).linked (by decide) (by decide)
      (source.weaken (by simp [noStop]))
  have whole : (sql "SELECT " ++ (_ ++ _)).Headed "SELECT" spell _ :=
    .led (by decide) (before.append apart closing)
  rw [Query.selectText, sqlServer, renderLock_sqlServer locks, List.append_nil]
  simp only [List.append_assoc] at whole ⊢
  refine .query operation whole ?_
  rw [Part.asked_query, fieldsListed, joinsListed, filterGiven, havingGiven, itemsListed,
    assignments, askedIn_nil, Set.union_empty]
  simp only [Set.union_assoc]

theorem Node.Embeds.count (operation : q.operation = .count) (clauses : q.checkClauses = .ok ())
    (joinsListed : q.joins = joins.map Prod.fst)
    (joined : ∀ j ∈ joins, (Node.join j.1).Embeds spell j.2)
    (filterGiven : q.filter = filter.map Prod.fst)
    (filters : ∀ x ∈ filter, (Node.condition .whereClause false x.1).Embeds spell x.2) :
    (Node.query q).Embeds spell (q.countText (joins.map Prod.snd) (filter.map Prod.snd)) := by
  obtain ⟨-, assignments, -, -⟩ := q.reads_only clauses (.inr operation)
  obtain ⟨-, fields, -, having, orderBy⟩ := q.selects_nothing clauses (by simp [operation])
  have table : q.table.render.Embeds isBreak spell 0 0 ∅ := q.table.embeds
  obtain ⟨apart, joins⟩ := Sql.Embeds.joins joined
  obtain ⟨apart', wheres⟩ := Sql.Embeds.conditional "WHERE" (by decide) (by decide) filters
  have whole : (sql "SELECT COUNT(*) FROM " ++ _).Headed "SELECT" spell _ :=
    .led (by decide) (((table.append apart joins).append apart' wheres).weaken (by simp [noStop]))
  simp only [Query.countText, List.append_assoc] at whole ⊢
  refine .query operation whole ?_
  rw [Part.asked_query, fields, joinsListed, filterGiven, having, orderBy, assignments]
  simp

theorem Node.Embeds.insert {first : Row} {upsert : Sql} (marked : SpelledMarked spell)
    (sqlServer : c.dialect = .sqlServer) (operation : q.operation = .insert)
    (clauses : q.checkClauses = .ok ())
    (outputs : renderOutput c.dialect .inserted q.returning = .ok output)
    (upserts : Upserts c q.onConflict upsert)
    (returns : renderReturning c.dialect q.returning = .ok returning) :
    (Node.query q).Embeds spell (q.insertText c first output upsert returning) := by
  rw [sqlServer] at outputs returns
  obtain rfl := renderReturning_sqlServer returns
  obtain ⟨conflict, rfl⟩ := upserts_sqlServer sqlServer upserts
  obtain ⟨filter, assignments⟩ := q.inserts_only clauses operation
  have table : q.table.render.Embeds noStop spell 0 0 ∅ := q.table.embeds.weaken (by simp [noStop])
  obtain ⟨apart, reported⟩ := Sql.Embeds.output outputs
  have columns : (q.table.render ++ sql " (" ++ _ ++ sql ")").Embeds noStop spell 0 0 _ :=
    (table.linked (by decide) (by decide) ((Sql.Embeds.names first.names).within 0)).closed
      (by decide)
  have values : (q.table.render ++ sql " (" ++ _ ++ sql ")" ++ output ++ sql " VALUES " ++ _).Embeds
      noStop spell 0 0 _ :=
    (columns.append apart (reported.weaken (by simp [noStop]))).linked (by decide) (by decide)
      ((Sql.Embeds.tuples marked c q.rows).weaken (by simp [noStop]))
  have whole : (sql "INSERT INTO " ++ _).Headed "INSERT" spell _ := .led (by decide) values
  have keyword : insertKeyword c.dialect q.onConflict = "INSERT INTO " := by
    rw [conflict, sqlServer]
    rfl
  rw [Query.insertText, List.append_nil, List.append_nil, keyword]
  simp only [List.append_assoc] at whole ⊢
  refine .query operation whole ?_
  rw [Part.asked_writing clauses (by simp [operation]) (by simp [operation]), filter, assignments]
  simp

theorem Node.Embeds.update (sqlServer : c.dialect = .sqlServer) (operation : q.operation = .update)
    (clauses : q.checkClauses = .ok ()) (setsListed : q.assignments = sets.map Prod.fst)
    (values : ∀ a ∈ sets, (Node.assigned a.1.value).Embeds spell a.2)
    (outputs : renderOutput c.dialect .inserted q.returning = .ok output)
    (filterGiven : q.filter = filter.map Prod.fst)
    (filters : ∀ x ∈ filter, (Node.condition .whereClause false x.1).Embeds spell x.2)
    (returns : renderReturning c.dialect q.returning = .ok returning) :
    (Node.query q).Embeds spell
      (q.updateText (sets.map fun a => (a.1.field, a.2)) output (filter.map Prod.snd)
        returning) := by
  rw [sqlServer] at outputs returns
  obtain rfl := renderReturning_sqlServer returns
  have table : q.table.render.Embeds noStop spell 0 0 ∅ := q.table.embeds.weaken (by simp [noStop])
  have assigned := Sql.Embeds.assignments values
  have set : (q.table.render ++ sql " SET " ++ _).Embeds noStop spell 0 0 _ :=
    table.linked (by decide) (by decide) (assigned.weaken (by simp [noStop]))
  have written : (sql "UPDATE " ++ _).Headed "UPDATE" spell _ := .led (by decide) set
  have whole := written.reported outputs filters
  rw [Query.updateText, List.append_nil]
  simp only [List.append_assoc] at whole ⊢
  refine .query operation whole ?_
  rw [Part.asked_writing clauses (by simp [operation]) (by simp [operation]), filterGiven, setsListed,
    Set.empty_union]

theorem Node.Embeds.delete (sqlServer : c.dialect = .sqlServer) (operation : q.operation = .delete)
    (clauses : q.checkClauses = .ok ())
    (outputs : renderOutput c.dialect .deleted q.returning = .ok output)
    (filterGiven : q.filter = filter.map Prod.fst)
    (filters : ∀ x ∈ filter, (Node.condition .whereClause false x.1).Embeds spell x.2)
    (returns : renderReturning c.dialect q.returning = .ok returning) :
    (Node.query q).Embeds spell (q.deleteText output (filter.map Prod.snd) returning) := by
  rw [sqlServer] at outputs returns
  obtain rfl := renderReturning_sqlServer returns
  have table : q.table.render.Embeds noStop spell 0 0 ∅ := q.table.embeds.weaken (by simp [noStop])
  have written : (sql "DELETE FROM " ++ q.table.render).Headed "DELETE" spell ∅ :=
    .led (by decide) table
  have whole := written.reported outputs filters
  rw [Query.deleteText, List.append_nil]
  refine .query operation whole ?_
  rw [Part.asked_writing clauses (by simp [operation]) (by simp [operation]), filterGiven,
    q.assigns_nothing clauses operation, askedIn_nil]

end Cases

/-- Whatever is rendered for SQL Server stands in its place without a keyword that ends it, and the
    queries in its brackets are those that are asked for. -/
theorem Renders.embeds {c : Context} {n : Node} {s : Sql} {spell : Hole → String}
    (marked : SpelledMarked spell) (sqlServer : c.dialect = .sqlServer) (made : Renders c n s) :
    n.Embeds spell s := by
  induction made with
  | field columned => exact .expr (Field.embeds columned)
  | @aggregate c kind f column columned =>
    have argument : (column.getD (sql "*")).Embeds isBreak spell 0 0 ∅ :=
      .aggregateField columned (by decide)
    refine .expr ?_
    simp only [Expr.asked, Option.toList_none, askedIn_nil]
    exact .enclosed (by cases kind <;> decide) argument (by decide)
  | filtered columned native =>
    rw [sqlServer] at native
    cases native
  | @chosen c kind f column filter condition columned rewritten filters ih =>
    have argument : (column.getD (sql "1")).Embeds isBreak spell 0 0 ∅ :=
      .aggregateField columned (by decide)
    refine .expr ?_
    simp only [Expr.asked, Option.toList_some, askedIn_cons, askedIn_nil]
    exact .paired (k := 0) (by cases kind <;> decide) (ih sqlServer) (by decide) (by decide)
      argument (by decide)
  | case branched branches ih =>
    obtain ⟨apart, inner⟩ := Sql.Embeds.branches fun w member => ih w member sqlServer
    have opens : (sql "CASE").Embeds isBreak spell 0 0 ∅ := .text (by decide)
    exact .expr (.congr (Set.empty_union _) ((opens.append apart inner).closed (by decide)))
  | caseElse branched branches styled ih =>
    exact .caseElse marked fun w member => ih w member sqlServer
  | coalesce several rendered =>
    refine .expr (.enclosed (by decide) (.commaList (forall_snd fun o member => ?_)) (by decide))
    exact Operand.embeds marked (rendered o member)
  | @nullIf c left right l r first second =>
    have left : l.Embeds isBreak spell 0 0 ∅ := Operand.embeds marked first
    have right : r.Embeds isBreak spell 0 0 ∅ := Operand.embeds marked second
    exact .expr (.congr (Set.empty_union _)
      (.paired (k := 0) (by decide) left (by decide) (by decide) right (by decide)))
  | math columned argument => exact .expr (.mathCall _ (Field.embeds columned) (by simp))
  | mathWith columned argument styled =>
    exact .expr (.mathCall _ (Field.embeds columned) (by simpa using .placeholder marked _ _))
  | @cast c f type column name columned typed =>
    have argument : column.Embeds isBreak spell 0 0 ∅ := Field.embeds columned
    exact .expr (.enclosed (by decide) argument (embedsOut_castType typed))
  | window called partition listed _ frame ih =>
    exact .window marked called partition listed (fun o member => ih o member sqlServer) frame
  | @binary c f op p column text columned styled joined =>
    exact .expr (.binary joined (Field.embeds columned) (.placeholder marked c p))
  | @projected c e text _ ih =>
    show text.Embeds isSeam spell 0 0 (Part.projected ⟨e, none⟩).asked
    rw [Part.asked_projected]
    exact (ih sqlServer).weaken fun x => isBreak_of_isSeam
  | aliased _ ih => exact .aliased (ih sqlServer)
  | @ordered c e text direction _ ih =>
    show (text ++ sql direction.suffix).Embeds isSeam spell 0 0 (Part.ordered ⟨e, direction, none⟩).asked
    rw [Part.asked_ordered]
    have computed := (ih sqlServer).weaken fun x => isBreak_of_isSeam
    exact computed.closed (by cases direction <;> decide)
  | orderedNulls _ supported =>
    rw [sqlServer] at supported
    cases supported
  | whenClause holds styled ih => exact .whenClause marked (ih sqlServer)
  | @null c scope nested f op column columned unary =>
    refine .condition ((Field.embeds columned).closed ?_)
    cases op <;> simp_all <;> decide
  | @simple c scope nested f op p column columned binary takes styled =>
    exact .condition (.congr (Set.union_empty _)
      (.compareSides sqlServer op (Field.embeds columned) (.placeholder marked c p)))
  | @only c scope nested op x text _ ih =>
    refine .condition (.congr ?_ (ih sqlServer))
    simp [Condition.asked, Node.asked]
  | @group c scope nested op items several members ih =>
    have inner : (Sql.join (" " ++ op.keyword ++ " ") (items.map Prod.snd)).Embeds isBreak spell 0 0
        (askedIn (fun x => (Part.condition x).asked) (items.map Prod.fst)) :=
      .join (by cases op <;> decide) (by cases op <;> decide) fun x member => ih x member sqlServer
    cases nested with
    | false => exact .condition inner
    | true => exact .condition (.enclosed (by decide) inner (by decide))
  | fieldComparison comparing first second =>
    exact .condition (.congr (Set.union_empty _)
      (.compareSides sqlServer _ (Field.embeds first) (Field.embeds second)))
  | subquery started reading entered inner ih =>
    have dialect := (Context.dialect_of_enter entered).trans sqlServer
    exact .subquery started reading dialect inner (ih dialect)
  | between columned styled => exact .between marked columned
  | @aggregateCondition c nested kind f op p column comparing columned styled =>
    have argument : (column.getD (sql "*")).Embeds isBreak spell 0 0 ∅ :=
      .aggregateField columned (by decide)
    have aggregated : (sql (aggregateOpening kind) ++ column.getD (sql "*") ++ sql ")").Embeds
        isBreak spell 0 0 ∅ := .enclosed (by cases kind <;> decide) argument (by decide)
    exact .condition (.congr (Set.union_empty _) (aggregated.linked (by cases op <;> decide)
      (by cases op <;> decide) (.placeholder marked c p)))
  | @expression c scope nested e op p left comparing placed computed styled ih =>
    exact .condition (.congr (Set.union_empty _)
      (.compareSides sqlServer op (ih sqlServer) (.placeholder marked c p)))
  | @crossJoin c kind table formed supported =>
    refine ⟨Sql.apart_of_opened (by cases kind <;> decide), ?_⟩
    have joined : table.render.Embeds isBreak spell 0 0 ∅ := table.embeds
    refine .congr ?_ (.led (by cases kind <;> decide) joined)
    simp [Node.asked]
  | join formed supported matching ih => exact .join (ih sqlServer)
  | @assignedParam c p styled => exact Sql.Embeds.placeholder marked c p
  | assignedExpr admitted _ ih => exact ih sqlServer
  | select operation clauses _ distinctly fieldsListed _ locks joinsListed _ filterGiven _ groups
      havingGiven _ itemsListed _ projects joined filters havings order =>
    exact .select sqlServer operation clauses distinctly
      fieldsListed (fun f member => projects f member sqlServer) locks
      joinsListed (fun j member => joined j member sqlServer)
      filterGiven (fun x member => filters x member sqlServer) groups
      havingGiven (fun x member => havings x member sqlServer)
      itemsListed (fun o member => order o member sqlServer)
  | count operation clauses joinsListed _ filterGiven _ joined filters =>
    exact .count operation clauses joinsListed (fun j member => joined j member sqlServer)
      filterGiven (fun x member => filters x member sqlServer)
  | insert operation clauses _ _ outputs upserts returns =>
    exact .insert marked sqlServer operation clauses outputs upserts returns
  | update operation clauses _ setsListed _ _ _ outputs filterGiven _ returns values filters =>
    exact .update sqlServer operation clauses setsListed (fun a member => values a member sqlServer)
      outputs filterGiven (fun x member => filters x member sqlServer) returns
  | delete operation clauses outputs filterGiven _ returns filters =>
    exact .delete sqlServer operation clauses outputs filterGiven
      (fun x member => filters x member sqlServer) returns

def Statement.opening : Statement → String
  | .query q => q.operation.opening
  | .compound _ => "SELECT"

def Statement.subqueries (statement : Statement) : Set Query := (Part.statement statement).asked

section Statements
variable {c : Context} {spell : Hole → String} {s : Sql} {asked : Set Query}

theorem Statement.subqueries_query (q : Query) :
    (Statement.query q).subqueries = (Part.query q).asked := by
  rw [subqueries, Part.asked_eq]
  simp [Part.own, Part.parts]

theorem Statement.subqueries_compound (q : CompoundQuery) :
    (Statement.compound q).subqueries = (Part.query q.base).asked ∪
      (askedIn (fun part => (Part.query part.query).asked) q.parts ∪
        askedIn (fun o => (Part.ordered o).asked) q.orderBy) := by
  rw [subqueries, Part.asked_eq]
  simp only [Part.own, Part.parts, Set.empty_union, askedIn_cons, askedIn_nil, Set.union_empty]
  rw [Part.asked_eq]
  simp [Part.own, Part.parts]

theorem furtherOperand_embeds {part : CompoundPart} (headed : s.Headed "SELECT" spell asked) :
    Apart ((furtherOperand (part, s)).lexemes spell) ∧
      (furtherOperand (part, s)).Embeds noStop spell 0 0 asked := by
  have begins : opened (" " ++ part.op.display ++ " ").toList = true := by cases part.op <;> decide
  have ends : closed (" " ++ part.op.display ++ " ").toList = true := by cases part.op <;> decide
  refine ⟨Sql.apart_of_opened begins, ?_⟩
  rw [furtherOperand, Sql.Embeds, Sql.visible_led ends, visible_display]
  exact headed.behind (by cases part.op <;> decide) (by cases part.op <;> decide)

/-- What a statement is rendered to begins with its keyword, and holds its subqueries in brackets. -/
theorem Statement.Renders.headed {statement : Statement} (marked : SpelledMarked spell)
    (sqlServer : c.dialect = .sqlServer) (made : statement.Renders c s) :
    s.Headed statement.opening spell statement.subqueries := by
  cases made with
  | @query q _ made =>
    rw [Statement.subqueries_query]
    exact made.embeds marked sqlServer
  | @compound q base parts items several checked first partsListed supported more itemsListed order =>
    have headed {query : Query} {text : Sql} (member : query ∈ q.operands)
        (made : TypedSql.Renders c (.query query) text) :
        text.Headed "SELECT" spell (Part.query query).asked := by
      have whole : text.Headed query.operation.opening spell (Part.query query).asked :=
        made.embeds marked sqlServer
      rwa [operation_of_checkOperands checked member] at whole
    have further : ∀ p ∈ parts.map fun p => (p.1, furtherOperand p),
        Apart (p.2.lexemes spell) ∧ p.2.Embeds noStop spell 0 0 (Part.query p.1.query).asked := by
      intro x member
      obtain ⟨p, inside, rfl⟩ := List.mem_map.mp member
      have among : p.1.query ∈ q.operands := by
        rw [CompoundQuery.operands, partsListed]
        exact List.mem_cons_of_mem _ (List.mem_map_of_mem (List.mem_map_of_mem inside))
      exact furtherOperand_embeds (headed among (more p inside))
    obtain ⟨apart, operands⟩ :=
      Sql.Embeds.flatten (f := fun part : CompoundPart => (Part.query part.query).asked) further
    obtain ⟨apart', closing⟩ := closing_embeds
      (fun o member => (order o member).embeds marked sqlServer) q.limit q.offset (!q.orderBy.isEmpty)
    rw [List.map_map] at apart operands
    have whole := ((headed List.mem_cons_self first).append apart operands).append apart' closing
    rw [sqlServer, List.append_assoc (base ++ _)]
    refine whole.congr ?_
    rw [Statement.subqueries_compound, partsListed, itemsListed, List.map_map, Set.union_assoc]
    rfl

end Statements
end TypedSql
