import TypedSql.Proofs.Placeholders
import TypedSql.Proofs.Render.Outlined

namespace TypedSql

def Rendered.outline (r : Rendered) : Option (List Heading) :=
  (Dialect.postgres.lex r.sql.toList).bind fun tokens => TypedSql.outline (lexemes tokens)

def Clause.operations : Clause → List Operation
  | .tableAlias | .join => [.select, .count]
  | .filter => [.select, .count, .update, .delete]
  | .values | .onConflict => [.insert]
  | .set => [.update]
  | .returning => [.insert, .update, .delete]
  | _ => [.select]

theorem Clause.mem_operations {clause : Clause} {operation : Operation} :
    operation ∈ clause.operations ↔ clause ∈ operation.clauses := by
  cases clause <;> cases operation <;> decide

section Refused
variable {q : Query} {clause : Clause}

theorem Query.refused_of_checkClauses {e : RenderError} (refused : q.checkClauses = .error e)
    (c : Context) : (q.render c).result = .error e := by
  rw [renderQuery_eq, renderOperation]
  cases q.operation <;>
    simp only [renderSelect, renderCount, renderInsert, renderUpdate, renderDelete, refused,
      Render.lift_eq] <;> rfl

theorem Query.checkClauses_of_present (present : clause.isPresent q = true)
    (outside : q.operation ∉ clause.operations) :
    ∃ refused, refused.isPresent q = true ∧ q.operation ∉ refused.operations ∧
      q.checkClauses = .error (.clauseNotAllowed q.operation refused) := by
  have found : (Clause.all.find? fun clause =>
      !q.operation.clauses.contains clause && clause.isPresent q).isSome := by
    refine List.find?_isSome.mpr ⟨clause, by cases clause <;> decide, ?_⟩
    simpa [present] using mt Clause.mem_operations.mpr outside
  obtain ⟨refused, first⟩ := Option.isSome_iff_exists.mp found
  have fault := List.find?_some first
  simp only [Bool.and_eq_true, Bool.not_eq_true', List.contains_eq_mem, decide_eq_false_iff_not]
    at fault
  exact ⟨refused, fault.2, mt Clause.mem_operations.mp fault.1, by rw [checkClauses, first]⟩

end Refused

/-- No clause is dropped and none is invented: the text of a query for PostgreSQL has the clauses
    that the query has, and a query with a clause that its operation has no place for is refused by
    the name of such a clause. -/
theorem Query.clauses_shown (q : Query) (options : RenderOptions) :
    (∀ r, options.dialect = .postgres → q.toSql options = .ok r → r.outline = some q.headings) ∧
      ∀ clause : Clause, clause.isPresent q = true → q.operation ∉ clause.operations →
        ∃ refused : Clause, refused.isPresent q = true ∧ q.operation ∉ refused.operations ∧
          q.toSql options = .error (.clauseNotAllowed q.operation refused) := by
  constructor
  · intro r postgres rendered
    have sent : (Statement.query q).toSql options = .ok r := rendered
    obtain ⟨s, ⟨made⟩, read, -⟩ := Statement.sent_tokens sent
    have marked := spellHole_marked options.dialect options.placeholders (Statement.query q).paramSet
    obtain ⟨lead, marks, clauses, skimmed, cut, said⟩ := Query.outlined marked postgres made
    have shown : skim 0 (lexemes (s.tokens ((Statement.query q).spelling options))) = (marks, 0) :=
      skimmed
    rw [Rendered.outline, ← postgres, read, Option.bind_some, TypedSql.outline, shown, cut, said]
  · intro clause present outside
    obtain ⟨refused, present', outside', fault⟩ := Query.checkClauses_of_present present outside
    have failed := Query.refused_of_checkClauses fault (.top options)
    exact ⟨refused, present', outside', RenderOptions.run_eq_error_iff.mpr failed⟩

def lockedPage : Query :=
  let seen : Query :=
    { operation := .select, table := { name := "visits" }, fields := [⟨.field { name := "id" }, none⟩]
      filter := some (.simple { name := "user" } .eq (some idParam)), limit := some 5 }
  { operation := .select, table := { name := "orders" }
    joins := [⟨.left, { name := "items" },
      some (.fieldComparison { name := "id" } .eq { name := "owner" })⟩]
    filter := some (.subquery (some { name := "id" }) .isIn seen)
    orderBy := [⟨.field { name := "id" }, .asc, none⟩], limit := some 10, offset := some 20
    lock := some ⟨.update, .skipLocked⟩ }

def lockedPageSent : Rendered where
  sql := "SELECT * FROM \x22orders\x22 LEFT JOIN \x22items\x22 ON \x22id\x22 = \x22owner\x22 " ++
    "WHERE \x22id\x22 IN (SELECT \x22id\x22 FROM \x22visits\x22 WHERE \x22user\x22 = :sq1_id " ++
    "LIMIT 5) ORDER BY \x22id\x22 ASC LIMIT 10 OFFSET 20 FOR UPDATE SKIP LOCKED"
  params := ["sq1_id"]

theorem lockedPage_clauses :
    lockedPage.toSql {} = .ok lockedPageSent ∧
      lockedPageSent.outline = some [.join .left, .filter, .orderBy, .limit 10, .offset 20,
        .lock ⟨.update, .skipLocked⟩] ∧
      ∃ refused : Clause, refused.isPresent lockedPage = true ∧
        { lockedPage with operation := .delete }.toSql {} =
          .error (.clauseNotAllowed .delete refused) := by
  have rendered : lockedPage.toSql {} = .ok lockedPageSent := by decide +kernel
  have shown := (Query.clauses_shown lockedPage {}).1 lockedPageSent rfl rendered
  have refuses := (Query.clauses_shown { lockedPage with operation := .delete } {}).2
  obtain ⟨refused, present, -, failed⟩ := refuses .limit (by decide) (by decide)
  exact ⟨rendered, shown, refused, present, failed⟩

end TypedSql
