import TypedSql.Proofs.Render.Layout

namespace TypedSql

/-- Where a rendered constituent can stand. Only a statement that reads can be a part of
    another. -/
def Node.Laid : Node → Sql → Prop
  | .whenClause _, s | .join _, s => Tail s
  | .query q, s =>
    s.Runs .start 0 .any 0 ∧ (q.operation = .select ∨ q.operation = .count → Worded s)
  | _, s => Phrase s

theorem Query.laid_of_worded {q : Query} {s : Sql} (worded : Worded s) : (Node.query q).Laid s :=
  ⟨Sql.Runs.weaken worded (by rintro _ rfl; exact ⟨by simp, by simp⟩) fun _ stands => stands,
    fun _ => worded⟩

theorem Query.laid_of_writing {q : Query} {s : Sql} (runs : s.Runs .start 0 .any 0)
    (operation : q.operation ≠ .select ∧ q.operation ≠ .count) : (Node.query q).Laid s :=
  ⟨runs, fun reading => by rcases reading with reading | reading <;> simp_all⟩

section Members
variable {α : Type} {P : Sql → Prop}

theorem forall_snd {pairs : List (α × Sql)} (each : ∀ p ∈ pairs, P p.2) :
    ∀ s ∈ pairs.map Prod.snd, P s := by
  intro s member
  obtain ⟨p, inside, rfl⟩ := List.mem_map.mp member
  exact each p inside

theorem forall_snd_option {pair : Option (α × Sql)} (each : ∀ p ∈ pair, P p.2) :
    ∀ s ∈ pair.map Prod.snd, P s := by
  intro s member
  obtain ⟨p, inside, rfl⟩ := Option.map_eq_some_iff.mp member
  exact each p inside

end Members

theorem Renders.laid {c : Context} {n : Node} {s : Sql} (made : Renders c n s) : n.Laid s := by
  -- fixed text is checked by computation, the rest follows from what it stands between
  induction made with
  | field columned => exact Phrase.field columned
  | @aggregate c kind f column columned =>
    exact Phrase.enclosed (k := 1) (by cases kind <;> decide) (by decide)
      (.aggregateField columned (by decide))
  | @filtered c kind f column filter condition columned native _ ih =>
    exact Phrase.paired (k := 1) (l := 1) (by cases kind <;> decide) (by decide) (by decide)
      (.aggregateField columned (by decide)) ih
  | @chosen c kind f column filter condition columned rewritten _ ih =>
    exact Phrase.paired (k := 1) (l := 1) (by cases kind <;> decide) (by decide) (by decide) ih
      (.aggregateField columned (by decide))
  | case branched _ ih =>
    have opens : Phrase (sql "CASE") := .text (by decide)
    exact (opens.followed (.flatten (forall_snd ih))).followed (.text (by decide))
  | caseElse branched _ styled ih =>
    have opens : Phrase (sql "CASE") := .text (by decide)
    exact ((Phrase.linked (by decide) (opens.followed (.flatten (forall_snd ih)))
      (.placeholder _ _))).followed (.text (by decide))
  | coalesce several rendered =>
    exact Phrase.enclosed (k := 1) (by decide) (by decide)
      (.commaList (forall_snd fun o member => .operand (rendered o member)))
  | nullIf first second =>
    exact Phrase.paired (k := 1) (l := 1) (by decide) (by decide) (by decide) (.operand first)
      (.operand second)
  | math columned argument => exact Phrase.mathCall _ (.field columned) (by simp)
  | mathWith columned argument styled =>
    exact Phrase.mathCall _ (.field columned) (by simpa using Phrase.placeholder _ _)
  | @cast c f type column name columned typed =>
    exact Phrase.enclosed (k := 1) (by decide) (fits_castType typed) (.field columned)
  | window called partition listed order frame ih =>
    have opens : (sql " OVER (").Runs .any 0 .clear 1 := .text (by decide)
    have rows := Worded.window partition (forall_snd ih) frame
    exact ((Sql.Runs.append called.phrase opens).append (rows.inside 1)).append (.text (by decide))
  | binary columned styled joined =>
    exact Phrase.binary joined (.field columned) (.placeholder _ _)
  | projected _ ih => exact ih
  | @aliased c e text output _ ih =>
    have leads : (sql " AS ").Runs .any 0 (.ready .outputAlias) 0 := .text (by decide)
    exact Sql.Runs.append ih (leads.append (.name .outputAlias output.name))
  | @ordered c e text direction _ ih =>
    exact Phrase.followed ih (.text (by cases direction <;> decide))
  | @orderedNulls c e text direction nulls _ supported ih =>
    exact Phrase.followed ih (.text (by cases direction <;> cases nulls <;> decide))
  | whenClause _ styled ih =>
    have opens : Tail (sql " WHEN " ++ _) := .led (by decide) ih
    exact (Sql.Runs.append opens (.text (by decide))).append (Phrase.placeholder _ _)
  | @null c scope nested f op column columned unary =>
    exact Phrase.followed (.field columned) (.text (by cases op <;> decide))
  | simple columned binary takes styled => exact .compareSides _ (.field columned) (.placeholder _ _)
  | only _ ih => exact ih
  | @group c scope nested op items several _ ih =>
    have joined : Phrase (Sql.join (" " ++ op.keyword ++ " ") (items.map Prod.snd)) :=
      .join (by cases op <;> decide) (forall_snd ih)
    cases nested with
    | false => exact joined
    | true => exact Phrase.enclosed (k := 1) (by decide) (by decide) joined
  | fieldComparison comparing first second =>
    exact Phrase.compareSides _ (.field first) (.field second)
  | subquery started reading entered _ ih =>
    have left := Sql.Runs.subqueryLeft started
    have inner := (ih.2 (operation_of_checkSubquery reading)).inside 1
    have opens : (sql "(").Runs .clear 0 .clear 1 := .text (by decide)
    exact left.append ((opens.append inner).append (.text (by decide)))
  | @between c scope nested f low high negated column columned styled =>
    exact Phrase.linked (by decide) (Phrase.linked (by cases negated <;> decide) (.field columned)
      (.placeholder _ _)) (.placeholder _ _)
  | @aggregateCondition c nested kind f op p column comparing columned styled =>
    have aggregated : Phrase (sql (aggregateOpening kind) ++ column.getD (sql "*") ++ sql ")") :=
      .enclosed (k := 1) (by cases kind <;> decide) (by decide)
        (.aggregateField columned (by decide))
    exact Phrase.linked (by cases op <;> decide) aggregated (.placeholder _ _)
  | expression comparing placed _ styled ih => exact Phrase.compareSides _ ih (.placeholder _ _)
  | @crossJoin c kind table formed supported => exact Tail.joined kind table
  | @join c kind table on text formed supported _ ih =>
    exact Sql.Runs.append (Sql.Runs.append (Tail.joined kind table) (.text (by decide))) ih
  | assignedParam styled => exact Phrase.placeholder _ _
  | assignedExpr admitted _ ih => exact ih
  | @select c q distinct lock groupBy fields joins filter having items operation clauses rules
      distinctly _ _ locks _ _ _ _ groups _ _ _ _ projects joined filters havings order =>
    refine Query.laid_of_worded ?_
    have opens : (sql "SELECT ").Runs .clear 0 (.ready .field) 0 := .text (by decide)
    have from_ : (sql " FROM ").Runs .any 0 (.ready .table) 0 := .text (by decide)
    have projected := (opens.append (Sql.Runs.distinct distinctly)).append
      (Phrase.projection (forall_snd projects))
    have table := (projected.append from_).append q.table.runs_render
    have body := (table.append (Tail.lock locks).1).append (Tail.flatten (forall_snd joined))
    have filtered := body.append (Tail.conditional "WHERE" (by decide) (forall_snd_option filters))
    have grouped := (filtered.append (Tail.groupBy groups)).append
      (Tail.conditional "HAVING" (by decide) (forall_snd_option havings))
    have ordered := grouped.append (Tail.orderClause (forall_snd order))
    exact (ordered.append (Tail.pagination _ _ _ _)).append (Tail.lock locks).2
  | @count c q joins filter operation clauses _ _ _ _ joined filters =>
    refine Query.laid_of_worded ?_
    have opens : (sql "SELECT COUNT(*) FROM ").Runs .clear 0 (.ready .table) 0 := .text (by decide)
    have table := opens.append q.table.runs_render
    exact (table.append (Tail.flatten (forall_snd joined))).append
      (Tail.conditional "WHERE" (by decide) (forall_snd_option filters))
  | @insert c q first output upsert returning operation clauses shaped styled outputs upserts
      returns =>
    refine Query.laid_of_writing ?_ (by simp [operation])
    have opens : (sql (insertKeyword c.dialect q.onConflict)).Runs .start 0 (.ready .table) 0 := by
      refine .text ?_
      unfold insertKeyword
      split <;> decide
    have bracket : (sql " (").Runs .any 0 (.ready .field) 1 := .text (by decide)
    have values : (sql " VALUES ").Runs .any 0 (.ready .field) 0 := .text (by decide)
    have columns := ((opens.append q.table.runs_render).append bracket).append
      ((Phrase.names first.names).inside 1)
    have closes : (sql ")").Runs .any 1 .any 0 := .text (by decide)
    have reported := (columns.append closes).append (Tail.output outputs)
    have tuples : Phrase (Sql.commaList (q.rows.map (TypedSql.tuple c))) := by
      refine .commaList fun p member => ?_
      obtain ⟨row, -, rfl⟩ := List.mem_map.mp member
      exact .tuple c row
    exact (((reported.append values).append tuples).append upserts.tail).append
      (Tail.returning returns)
  | @update c q output returning sets filter operation clauses assigned setsListed _ plain unrepeated
      outputs filterGiven _ returns values filters =>
    refine Query.laid_of_writing ?_ (by simp [operation])
    have opens : (sql "UPDATE ").Runs .start 0 (.ready .table) 0 := .text (by decide)
    have setting : (sql " SET ").Runs .any 0 (.ready .field) 0 := .text (by decide)
    have assignments : Phrase (Sql.commaList ((sortAssignments (sets.map fun a =>
        (a.1.field, a.2))).map assignmentSql)) := .commaList fun p member => by
      obtain ⟨assignment, inside, rfl⟩ := List.mem_map.mp member
      obtain ⟨a, among, rfl⟩ := List.mem_map.mp (mem_sortAssignments.mp inside)
      exact .assignment (values a among)
    have table := (opens.append q.table.runs_render).append setting
    exact (((table.append assignments).append (Tail.output outputs)).append
      (Tail.conditional "WHERE" (by decide) (forall_snd_option filters))).append
      (Tail.returning returns)
  | @delete c q output returning filter operation clauses outputs _ _ returns filters =>
    refine Query.laid_of_writing ?_ (by simp [operation])
    have opens : (sql "DELETE FROM ").Runs .start 0 (.ready .table) 0 := .text (by decide)
    exact (((opens.append q.table.runs_render).append (Tail.output outputs)).append
      (Tail.conditional "WHERE" (by decide) (forall_snd_option filters))).append
      (Tail.returning returns)

theorem Statement.Renders.runs {c : Context} {statement : Statement} {s : Sql}
    (made : statement.Renders c s) : s.Runs .start 0 .any 0 := by
  cases made with
  | query made => exact made.laid.1
  | @compound q base parts items several operands first partsListed supported more itemsListed
      order =>
    have reading {query : Query} (member : query ∈ q.operands) :
        query.operation = .select ∨ query.operation = .count :=
      .inl (operation_of_checkOperands operands member)
    have further : ∀ s ∈ parts.map furtherOperand, Tail s := by
      intro s member
      obtain ⟨p, inside, rfl⟩ := List.mem_map.mp member
      have operand : p.1.query ∈ q.operands := by
        simp only [CompoundQuery.operands, partsListed, List.mem_cons, List.mem_map]
        exact .inr ⟨p.1, ⟨p, inside, rfl⟩, rfl⟩
      have links : (sql (" " ++ p.1.op.display ++ " ")).Runs .any 0 .clear 0 :=
        .text (by cases p.1.op <;> decide)
      exact links.append ((more p inside).laid.2 (reading operand))
    have base := Sql.Runs.append first.laid.1 (Tail.flatten further)
    have ordered := base.append (Tail.orderClause (forall_snd fun o member => (order o member).laid))
    exact ordered.append (Tail.pagination _ _ _ _)

end TypedSql
