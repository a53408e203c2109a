import TypedSql.Proofs.Render.Hinge
import TypedSql.Proofs.Render.Paging

namespace TypedSql

def Node.asked : Node → Set Query
  | .expr e => (Part.expr e).asked
  | .projected f => (Part.projected f).asked
  | .ordered o => (Part.ordered o).asked
  | .whenClause w => (Part.whenClause w).asked
  | .condition _ _ x => (Part.condition x).asked
  | .join j => (Part.join j).asked
  | .assigned (.param _) => ∅
  | .assigned (.expr e) => (Part.expr e).asked
  | .query q => (Part.query q).asked

def Operation.opening : Operation → String
  | .select | .count => "SELECT"
  | .insert => "INSERT"
  | .update => "UPDATE"
  | .delete => "DELETE"

/-- Where a constituent can stand, and which queries stand in brackets in it. -/
def Node.Embeds (spell : Hole → String) : Node → Sql → Prop
  | .projected f, s => s.Embeds isSeam spell 0 0 (Node.projected f).asked
  | .ordered o, s => s.Embeds isSeam spell 0 0 (Node.ordered o).asked
  | .whenClause w, s =>
    Apart (s.lexemes spell) ∧ s.Embeds isBreak spell 0 0 (Node.whenClause w).asked
  | .join j, s => Apart (s.lexemes spell) ∧ s.Embeds isBreak spell 0 0 (Node.join j).asked
  | .query q, s => Sql.Headed q.operation.opening spell s (Node.query q).asked
  | n, s => s.Embeds isBreak spell 0 0 n.asked

section Parts
variable {spell : Hole → String} {s : Sql}

theorem Node.Embeds.expr {e : Expr} (embeds : s.Embeds isBreak spell 0 0 e.asked) :
    (Node.expr e).Embeds spell s := by
  show s.Embeds isBreak spell 0 0 (Part.expr e).asked
  rwa [Part.asked_expr]

theorem Node.Embeds.condition {scope : Scope} {nested : Bool} {x : Condition}
    (embeds : s.Embeds isBreak spell 0 0 x.asked) : (Node.condition scope nested x).Embeds spell s := by
  show s.Embeds isBreak spell 0 0 (Part.condition x).asked
  rwa [Part.asked_condition]

theorem Node.Embeds.query {q : Query} {kind : Operation} {asked : Set Query}
    (operation : q.operation = kind) (headed : s.Headed kind.opening spell asked)
    (same : (Part.query q).asked = asked) : (Node.query q).Embeds spell s := by
  show s.Headed q.operation.opening spell (Part.query q).asked
  rwa [operation, same]

end Parts

section Clauses
variable {d : Dialect} {spell : Hole → String} {s : Sql}

theorem isBreak_of_isSeam {x : Lexeme} (seam : isSeam x = true) : isBreak x = true := by
  simp [isBreak, seam]

theorem isSeam_of_isQueryWord {x : Lexeme} (word : x.isQueryWord = true) : isSeam x = true := by
  simp [isSeam, word]

theorem Sql.Embeds.projection {fields : List (FieldExpr × Sql)}
    (each : ∀ f ∈ fields, (Node.projected f.1).Embeds spell f.2) :
    (projection (fields.map Prod.snd)).Embeds Lexeme.isQueryWord spell 0 0
      (askedIn (fun f => (Part.projected f).asked) (fields.map Prod.fst)) := by
  cases fields with
  | nil =>
    rw [List.map_nil, List.map_nil, askedIn_nil]
    exact .text (by decide)
  | cons f rest =>
    exact .join (by decide) (by decide) fun x member =>
      (each x member).weaken fun y => isSeam_of_isQueryWord

theorem Sql.Embeds.branches {whens : List (WhenClause × Sql)}
    (each : ∀ w ∈ whens, (Node.whenClause w.1).Embeds spell w.2) :
    Apart (Sql.lexemes spell (whens.map Prod.snd).flatten) ∧
      Sql.Embeds isBreak spell 0 (whens.map Prod.snd).flatten 0
        (askedIn (fun w => (Part.whenClause w).asked) (whens.map Prod.fst)) := flatten each

theorem Sql.Embeds.joins {joins : List (Join × Sql)}
    (each : ∀ j ∈ joins, (Node.join j.1).Embeds spell j.2) :
    Apart (Sql.lexemes spell (joins.map Prod.snd).flatten) ∧
      Sql.Embeds isBreak spell 0 (joins.map Prod.snd).flatten 0
        (askedIn (fun j => (Part.join j).asked) (joins.map Prod.fst)) := flatten each

theorem Sql.Embeds.conditional (keyword : String) {pair : Option (Condition × Sql)}
    (leading : embedsIn isBreak (" " ++ keyword ++ " ").toList 0 0 = true)
    (begins : opened (" " ++ keyword ++ " ").toList = true)
    (each : ∀ x ∈ pair, x.2.Embeds isBreak spell 0 0 (Part.condition x.1).asked) :
    Apart ((conditional keyword (pair.map Prod.snd)).lexemes spell) ∧
      (conditional keyword (pair.map Prod.snd)).Embeds isBreak spell 0 0
        (askedIn (fun x => (Part.condition x).asked) (pair.map Prod.fst).toList) := by
  cases pair with
  | none =>
    simp only [Option.map_none, Option.toList_none, askedIn_nil]
    exact ⟨trivial, .nil⟩
  | some x =>
    simp only [Option.map_some, Option.toList_some, askedIn_cons, askedIn_nil, Set.union_empty]
    exact ⟨Sql.apart_of_opened begins, .led leading (each x rfl)⟩

theorem Sql.Embeds.groupBy {groupBy : List Field} (made : renderGroupBy d groupBy = .ok s) :
    Apart (s.lexemes spell) ∧ s.Embeds Lexeme.isQueryWord spell 0 0 ∅ := by
  rcases renderGroupBy_ok made with ⟨-, rfl⟩ | ⟨full, fields, rendered, rfl⟩
  · exact ⟨trivial, .nil⟩
  · exact ⟨Sql.apart_of_opened (by decide), .led (q := 0) (by decide) (renderFields_embeds rendered)⟩

theorem Sql.Embeds.orderClause {items : List (OrderBy × Sql)}
    (each : ∀ o ∈ items, (Node.ordered o.1).Embeds spell o.2) :
    Apart ((orderClause (items.map Prod.snd)).lexemes spell) ∧
      (orderClause (items.map Prod.snd)).Embeds noStop spell 0 0
        (askedIn (fun o => (Part.ordered o).asked) (items.map Prod.fst)) := by
  cases items with
  | nil =>
    rw [List.map_nil, List.map_nil, askedIn_nil]
    exact ⟨trivial, .nil⟩
  | cons o rest =>
    have listed : (Sql.commaList ((o :: rest).map Prod.snd)).Embeds noStop spell 0 0
        (askedIn (fun o => (Part.ordered o).asked) ((o :: rest).map Prod.fst)) :=
      .join (by decide) (by decide) fun x member => (each x member).weaken (by simp [noStop])
    exact ⟨Sql.apart_of_opened (by decide), .led (by decide) listed⟩

theorem renderLock_sqlServer {lock : Option RowLock} {written : Sql × Sql}
    (made : renderLock .sqlServer lock = .ok written) : written.2 = [] := by
  cases lock with
  | none =>
    obtain rfl : ([], []) = written := by simpa [renderLock, pure, Except.pure] using made
    rfl
  | some lock =>
    obtain rfl : (sql (" " ++ Dialect.lockHint lock), []) = written := by
      simpa [renderLock, Dialect.lockClause, Dialect.require, Dialect.supports, bind, Except.bind,
        pure, Except.pure] using made
    rfl

theorem Sql.Embeds.hint {lock : Option RowLock} {written : Sql × Sql}
    (made : renderLock .sqlServer lock = .ok written) :
    Apart (written.1.lexemes spell) ∧ written.1.Embeds isBreak spell 0 0 ∅ := by
  rcases renderLock_ok made with rfl | ⟨⟨strength, waiting⟩, -, rfl | rfl⟩
  · exact ⟨trivial, .nil⟩
  · exact ⟨trivial, .nil⟩
  · constructor
    · exact Sql.apart_sql (by cases strength <;> cases waiting <;> decide)
    · exact .text (by cases strength <;> cases waiting <;> decide)

theorem Sql.Embeds.output {source : OutputSource} {returning : List Field}
    (made : renderOutput d source returning = .ok s) :
    Apart (s.lexemes spell) ∧ s.Embeds Lexeme.isQueryWord spell 0 0 ∅ := by
  rcases renderOutput_ok made with ⟨-, rfl⟩ | ⟨-, -, rfl⟩
  · exact ⟨trivial, .nil⟩
  · refine ⟨Sql.apart_of_opened (by decide), .led (q := 0) (by decide) (.commaList fun p member => ?_)⟩
    obtain ⟨f, -, rfl⟩ := List.mem_map.mp member
    have column : Sql.Embeds isBreak spell 0 [.name .field f.name] 0 ∅ := .of_bare (.single rfl)
    exact .led (p := 0) (by cases source <;> decide) column

theorem renderReturning_sqlServer {returning : List Field}
    (made : renderReturning .sqlServer returning = .ok s) : [] = s := by
  rcases renderReturning_ok made with ⟨-, rfl⟩ | ⟨-, rfl⟩ | ⟨other, -⟩
  · rfl
  · rfl
  · cases other

theorem Sql.Embeds.names (names : List String) :
    (Sql.commaList (names.map fun n => [.name .field n])).Embeds Lexeme.isQueryWord spell 0 0 ∅ := by
  refine .commaList fun s member => ?_
  obtain ⟨n, -, rfl⟩ := List.mem_map.mp member
  exact .of_bare (.single rfl)

theorem Sql.Embeds.tuples (marked : SpelledMarked spell) (c : Context) (rows : List Row) :
    (Sql.commaList (rows.map (tuple c))).Embeds Lexeme.isQueryWord spell 0 0 ∅ := by
  refine .commaList fun s member => ?_
  obtain ⟨row, -, rfl⟩ := List.mem_map.mp member
  have values : (Sql.commaList (row.values.map c.placeholder)).Embeds Lexeme.isQueryWord spell 0 0 ∅ := by
    refine .commaList fun s member => ?_
    obtain ⟨p, -, rfl⟩ := List.mem_map.mp member
    exact .placeholder marked c p
  exact .enclosed (by decide) values (by decide)

theorem upserts_sqlServer {c : Context} {conflict : Option OnConflict} {upsert : Sql}
    (sqlServer : c.dialect = .sqlServer) (upserts : Upserts c conflict upsert) :
    conflict = none ∧ upsert = [] := by
  cases upserts with
  | none => exact ⟨rfl, rfl⟩
  | skip other | update other | ignore other | duplicate other =>
    rw [sqlServer] at other
    cases other

theorem Sql.Embeds.assignments {sets : List (Assignment × Sql)}
    (each : ∀ a ∈ sets, (Node.assigned a.1.value).Embeds spell a.2) :
    (Sql.commaList ((sortAssignments (sets.map fun a => (a.1.field, a.2))).map assignmentSql)).Embeds
      Lexeme.isQueryWord spell 0 0
      (askedIn (fun a => (Node.assigned a.value).asked) (sets.map Prod.fst)) := by
  let sorted := sortAssignments (sets.map fun a => (a.1.field, a))
  have written : (sortAssignments (sets.map fun a => (a.1.field, a.2))).map assignmentSql =
      (sorted.map fun a => (a.2.1, assignmentSql (a.1, a.2.2))).map Prod.snd := by
    rw [sortAssignments_snd Assignment.field, List.map_map, List.map_map]
    rfl
  have same : askedIn (fun a => (Node.assigned a.value).asked)
      ((sorted.map fun a => (a.2.1, assignmentSql (a.1, a.2.2))).map Prod.fst) =
      askedIn (fun a => (Node.assigned a.value).asked) (sets.map Prod.fst) := by
    ext q
    simp [askedIn, sorted, mem_sortAssignments]
  rw [written, ← same]
  refine .join (by decide) (by decide) fun x member => ?_
  obtain ⟨a, inside, rfl⟩ := List.mem_map.mp member
  obtain ⟨b, among, rfl⟩ := List.mem_map.mp (mem_sortAssignments.mp inside)
  have target : Sql.Embeds isBreak spell 0 [.name .field b.1.field.name] 0 ∅ := .of_bare (.single rfl)
  have value : b.2.Embeds isBreak spell 0 0 (Node.assigned b.1.value).asked := each b among
  have whole :
      Sql.Embeds isBreak spell 0 ([Piece.name .field b.1.field.name] ++ sql " = " ++ b.2) 0 _ :=
    target.linked (by decide) (by decide) value
  rw [Set.empty_union] at whole
  exact whole.weaken fun x => isBreak_of_isQueryWord

end Clauses

theorem Part.asked_query (q : Query) : (query q).asked =
    askedIn (fun f => (projected f).asked) q.fields ∪
      (askedIn (fun j => (join j).asked) q.joins ∪
        (askedIn (fun x => (condition x).asked) q.filter.toList ∪
          (askedIn (fun x => (condition x).asked) q.having.toList ∪
            (askedIn (fun o => (ordered o).asked) q.orderBy ∪
              askedIn (fun a => (Node.assigned a.value).asked) q.assignments)))) := by
  have assigned (a : Assignment) : (assignment a).asked = (Node.assigned a.value).asked := by
    rw [asked_eq]
    obtain ⟨target, value⟩ := a
    cases value <;> simp [own, parts, Node.asked]
  rw [asked_eq]
  simp [own, parts, Query.parts, assigned]

theorem Part.asked_writing {q : Query} (clauses : q.checkClauses = .ok ())
    (operation : q.operation ≠ .select) (other : q.operation ≠ .count) : (query q).asked =
      askedIn (fun a => (Node.assigned a.value).asked) q.assignments ∪
        askedIn (fun x => (condition x).asked) q.filter.toList := by
  obtain ⟨joins, -⟩ := q.joins_nothing clauses operation other
  obtain ⟨-, fields, -, having, orderBy⟩ := q.selects_nothing clauses operation
  rw [asked_query, fields, joins, having, orderBy]
  simp [Set.union_comm]

section Queries
variable {spell : Hole → String} {c : Context} {q : Query} {distinct groupBy s : Sql}
  {lock : Sql × Sql} {fields : List (FieldExpr × Sql)} {joins : List (Join × Sql)}
  {filter having : Option (Condition × Sql)} {items : List (OrderBy × Sql)}

theorem renderDistinct_sqlServer {on : List Field} {given : Bool}
    (made : renderDistinct .sqlServer given on = .ok distinct) :
    distinct = if given then sql "DISTINCT " else [] := by
  cases given with
  | true => simpa [renderDistinct, pure, Except.pure, eq_comm] using made
  | false =>
    cases on with
    | nil => simpa [renderDistinct, pure, Except.pure, eq_comm] using made
    | cons f rest =>
      simp [renderDistinct, Dialect.require, Dialect.supports, bind, Except.bind] at made

theorem selected_embeds
    (distinctly : renderDistinct .sqlServer q.distinct q.distinctOn = .ok distinct)
    (projects : ∀ f ∈ fields, (Node.projected f.1).Embeds spell f.2) :
    (distinct ++ projection (fields.map Prod.snd)).Embeds Lexeme.isQueryWord spell 0 0
      (askedIn (fun f => (Part.projected f).asked) (fields.map Prod.fst)) := by
  rw [renderDistinct_sqlServer distinctly]
  cases q.distinct with
  | true => exact .led (by decide) (.projection projects)
  | false => exact .projection projects

theorem source_embeds (locks : renderLock .sqlServer q.lock = .ok lock)
    (groups : renderGroupBy c.dialect q.groupBy = .ok groupBy)
    (joined : ∀ j ∈ joins, (Node.join j.1).Embeds spell j.2)
    (filters : ∀ x ∈ filter, x.2.Embeds isBreak spell 0 0 (Part.condition x.1).asked)
    (havings : ∀ x ∈ having, x.2.Embeds isBreak spell 0 0 (Part.condition x.1).asked) :
    (q.table.render ++ lock.1 ++ (joins.map Prod.snd).flatten ++
        conditional "WHERE" (filter.map Prod.snd) ++ groupBy ++
          conditional "HAVING" (having.map Prod.snd)).Embeds Lexeme.isQueryWord spell 0 0
      (askedIn (fun j => (Part.join j).asked) (joins.map Prod.fst) ∪
        (askedIn (fun x => (Part.condition x).asked) (filter.map Prod.fst).toList ∪
          askedIn (fun x => (Part.condition x).asked) (having.map Prod.fst).toList)) := by
  have table : q.table.render.Embeds isBreak spell 0 0 ∅ := q.table.embeds
  obtain ⟨apart, hint⟩ := Sql.Embeds.hint locks
  obtain ⟨apart', joins⟩ := Sql.Embeds.joins joined
  obtain ⟨apart'', wheres⟩ := Sql.Embeds.conditional "WHERE" (by decide) (by decide) filters
  obtain ⟨apart₃, groups⟩ := Sql.Embeds.groupBy groups
  obtain ⟨apart₄, havings⟩ := Sql.Embeds.conditional "HAVING" (by decide) (by decide) havings
  have start := ((table.append apart hint).append apart' joins).append apart'' wheres
  have whole := ((start.weaken fun x => isBreak_of_isQueryWord).append apart₃ groups).append
    apart₄ (havings.weaken fun x => isBreak_of_isQueryWord)
  simpa [Set.union_assoc] using whole

theorem Sql.Headed.reported {keyword : String} {d : Dialect} {source : OutputSource}
    {returning : List Field} {output : Sql} {asked : Set Query} (headed : s.Headed keyword spell asked)
    (outputs : renderOutput d source returning = .ok output)
    (filters : ∀ x ∈ filter, x.2.Embeds isBreak spell 0 0 (Part.condition x.1).asked) :
    (s ++ output ++ conditional "WHERE" (filter.map Prod.snd)).Headed keyword spell
      (asked ∪ askedIn (fun x => (Part.condition x).asked) (filter.map Prod.fst).toList) := by
  obtain ⟨apart, reported⟩ := Sql.Embeds.output outputs
  obtain ⟨apart', wheres⟩ := Sql.Embeds.conditional "WHERE" (by decide) (by decide) filters
  have written := headed.append apart (reported.weaken (by simp [noStop]))
  rw [Set.union_empty] at written
  exact written.append apart' (wheres.weaken (by simp [noStop]))

theorem closing_embeds (order : ∀ o ∈ items, (Node.ordered o.1).Embeds spell o.2)
    (limit offset : Option UInt64) (ordered : Bool) :
    Apart (Sql.lexemes spell (orderClause (items.map Prod.snd) ++
        sql (Dialect.sqlServer.pagination limit offset ordered))) ∧
      (orderClause (items.map Prod.snd) ++
        sql (Dialect.sqlServer.pagination limit offset ordered)).Embeds noStop spell 0 0
        (askedIn (fun o => (Part.ordered o).asked) (items.map Prod.fst)) := by
  obtain ⟨apart, ordering⟩ := Sql.Embeds.orderClause order
  obtain ⟨apart', paging⟩ := Sql.Embeds.pagination limit offset ordered
  constructor
  · rw [Sql.lexemes_append apart']
    exact apart.append apart'
  · rw [← Set.union_empty (askedIn _ _)]
    exact ordering.append apart' paging

end Queries

section Windows
variable {spell : Hole → String} {d : Dialect}

theorem FrameBound.embeds (bound : FrameBound) : (sql bound.text).Embeds isBreak spell 0 0 ∅ := by
  cases bound with
  | preceding n => exact .texts (.inr (by decide)) (.number n.toNat) (.text (by decide))
  | following n => exact .texts (.inr (by decide)) (.number n.toNat) (.text (by decide))
  | _ => exact .text (by decide)

theorem Frame.embeds (frame : Frame) : (sql frame.text).Embeds isBreak spell 0 0 ∅ := by
  obtain ⟨units, start, stop⟩ := frame
  cases stop with
  | none =>
    have units : (sql (units.keyword ++ " ")).Embeds isBreak spell 0 0 ∅ :=
      .text (by cases units <;> decide)
    exact .texts (.inl (closed_append (by decide))) units start.embeds
  | some stop =>
    have units : (sql (units.keyword ++ " BETWEEN ")).Embeds isBreak spell 0 0 ∅ :=
      .text (by cases units <;> decide)
    have lower := Sql.Embeds.texts (.inl (closed_append (by decide))) units start.embeds
    have between : (sql " AND ").Embeds isBreak spell 0 0 ∅ := .text (by decide)
    have linked := Sql.Embeds.texts (.inr (by decide)) lower between
    exact .texts (.inl (closed_append (by decide))) linked stop.embeds

theorem window_embeds {partitioned framed : List Sql} {items : List (OrderBy × Sql)}
    (partition : ∀ s ∈ partitioned, s.Embeds noStop spell 0 0 ∅)
    (frame : ∀ s ∈ framed, s.Embeds noStop spell 0 0 ∅)
    (order : ∀ o ∈ items, (Node.ordered o.1).Embeds spell o.2) :
    (Sql.join " " (partitioned ++ windowOrder (items.map Prod.snd) ++ framed)).Embeds noStop spell
      0 0 (askedIn (fun o => (Part.ordered o).asked) (items.map Prod.fst)) := by
  -- the parts come with what is asked in them, which is nothing outside of the order
  let plain (parts : List Sql) : List (Set Query × Sql) := parts.map fun s => (∅, s)
  have texts (parts : List Sql) : (plain parts).map Prod.snd = parts := by
    simp [plain, Function.comp_def]
  have nothing (parts : List Sql) : askedIn id ((plain parts).map Prod.fst) = ∅ := by
    ext q
    simp [plain, askedIn]
  have each {parts : List Sql} (inside : ∀ s ∈ parts, s.Embeds noStop spell 0 0 ∅) :
      ∀ x ∈ plain parts, x.2.Embeds noStop spell 0 0 (id x.1) := by
    intro x member
    obtain ⟨s, among, rfl⟩ := List.mem_map.mp member
    exact inside s among
  have joined (middle : List (Set Query × Sql))
      (inside : ∀ x ∈ middle, x.2.Embeds noStop spell 0 0 (id x.1)) :
      (Sql.join " " (partitioned ++ middle.map Prod.snd ++ framed)).Embeds noStop spell 0 0
        (askedIn id (middle.map Prod.fst)) := by
    have whole : Sql.Embeds noStop spell 0 (Sql.join " "
        ((plain partitioned ++ middle ++ plain framed).map Prod.snd)) 0 (askedIn id _) :=
      .join (by decide) (by decide) (List.forall_mem_append.mpr
        ⟨List.forall_mem_append.mpr ⟨each partition, inside⟩, each frame⟩)
    rw [List.map_append, List.map_append, texts, texts, List.map_append, List.map_append,
      askedIn_append, askedIn_append, nothing, nothing, Set.empty_union, Set.union_empty] at whole
    exact whole
  cases items with
  | nil =>
    have none := joined [] (by simp)
    rw [List.map_nil, List.map_nil, askedIn_nil] at none
    rw [List.map_nil, List.map_nil, askedIn_nil]
    exact none
  | cons o rest =>
    have listed : (sql "ORDER BY " ++ Sql.commaList ((o :: rest).map Prod.snd)).Embeds noStop spell 0 0
        (askedIn (fun o => (Part.ordered o).asked) ((o :: rest).map Prod.fst)) := by
      refine .led (by decide) (.join (by decide) (by decide) fun x member => ?_)
      exact (order x member).weaken (by simp [noStop])
    have whole := joined [(_, _)] (List.forall_mem_singleton.mpr listed)
    rw [List.map_singleton, List.map_singleton, askedIn_cons, askedIn_nil, Set.union_empty] at whole
    exact whole

end Windows

end TypedSql
