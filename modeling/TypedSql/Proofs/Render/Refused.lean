import TypedSql.Proofs.Render.Hinged

namespace TypedSql

def Node.Exceeds (d : Dialect) : Node → Prop
  | .expr e => (Part.expr e).Exceeds d
  | .projected f => (Part.projected f).Exceeds d
  | .ordered o => (Part.ordered o).Exceeds d
  | .whenClause w => (Part.whenClause w).Exceeds d
  | .condition _ _ x => (Part.condition x).Exceeds d
  | .join j => (Part.join j).Exceeds d
  | .assigned (.param _) => False
  | .assigned (.expr e) => (Part.expr e).Exceeds d
  | .query q => (Part.query q).Exceeds d

section Queries
variable {d : Dialect}

theorem Part.exceeds_assignment {a : Assignment} (plain : a.field.isPlain = true) :
    (Part.assignment a).Exceeds d ↔ (Node.assigned a.value).Exceeds d := by
  obtain ⟨target, value⟩ := a
  have bare := Field.not_exceeds (d := d) plain
  rw [Part.exceeds_iff]
  cases value <;> simp [Part.asks, Part.parts, Node.Exceeds, bare]

theorem Part.not_exceeds_conflict {c : Context} {o : OnConflict} {s : Sql}
    (targeted : c.dialect.upsertStyle = .onConflict) (made : Upserts c (some o) s) :
    ¬(Part.conflict o).Exceeds d := by
  have bare : ∀ f ∈ o.target, ¬(Part.field f).Exceeds d := by
    have plain : ∀ columns, renderTarget o.target = .ok columns → ∀ f ∈ o.target, f.isPlain = true := by
      intro columns written
      rcases renderTarget_ok written with ⟨empty, -⟩ | ⟨plain, -⟩
      · simp [empty]
      · exact plain
    cases made with
    | ignore keyed => simp [targeted] at keyed
    | duplicate keyed => simp [targeted] at keyed
    | skip _ written => exact fun f member => Field.not_exceeds (plain _ written f member)
    | update _ written => exact fun f member => Field.not_exceeds (plain _ written f member)
  obtain ⟨target, action⟩ := o
  rw [Part.exceeds_iff]
  rintro (⟨_, asked, -⟩ | ⟨part, member, exceeds⟩)
  · simp [Part.asks] at asked
  · cases action <;> simp only [Part.parts, List.mem_append, List.mem_map] at member
    · obtain ⟨f, inside, rfl⟩ := member
      exact bare f inside exceeds
    · rcases member with ⟨f, inside, rfl⟩ | ⟨n, -, rfl⟩
      · exact bare f inside exceeds
      · simp at exceeds

theorem render_ok_of_returning {returning : List Field} {s : Sql}
    (targeted : d.upsertStyle = .onConflict) (returns : renderReturning d returning = .ok s) :
    ∀ f ∈ returning, ∃ t, f.render d = .ok t := by
  rcases renderReturning_ok returns with ⟨rfl, -⟩ | ⟨style, -⟩ | ⟨-, -, fields, listed, -⟩
  · simp
  · cases d <;> simp [Dialect.upsertStyle, Dialect.returningStyle] at targeted style
  · obtain ⟨pairs, rfl, -, each⟩ := renderFields_ok listed
    exact List.forall_mem_map.mpr fun p member => ⟨p.2, each p member⟩

theorem exceeds_reported (d : Dialect) (returning : List Field) :
    ((returning ≠ [] ∧ d.lacks .returning = true) ∨
        (∃ f ∈ returning, f.qualifier.isSome = true) ∧ d.lacks .qualifiedOutput = true ∨
        ∃ f ∈ returning, (Part.field f).Exceeds d) ↔
      (d = .sqlServer ∧ ∃ f ∈ returning, f.isPlain = false) ∨
        (returning ≠ [] ∧ d.lacks .returning = true) ∨
          (d ≠ .sqlServer ∧ ∃ f ∈ returning, (Part.field f).Exceeds d) := by
  simp only [Part.exceeds_field, Field.isPlain, Bool.and_eq_false_iff]
  cases d <;> simp [Dialect.lacks, ← exists_or, and_or_left]

theorem Query.locks_nothing {q : Query} (clauses : q.checkClauses = .ok ())
    (operation : q.operation ≠ .select) : q.lock = none := by
  have absent := q.isPresent_eq_false clauses .lock
  cases other : q.operation <;> rw [other] at absent operation
  case select => exact absurd rfl operation
  all_goals simpa [Clause.isPresent] using absent (by decide)

theorem Query.exceeds_writing {q : Query} (clauses : q.checkClauses = .ok ())
    (operation : q.operation ≠ .select) (other : q.operation ≠ .count) :
    (Part.query q).Exceeds d ↔
      (∃ x ∈ q.filter, (Part.condition x).Exceeds d) ∨
      (∃ a ∈ q.assignments, (Part.assignment a).Exceeds d) ∨
      ((d = .sqlServer ∧ ∃ f ∈ q.returning, f.isPlain = false) ∨
        (q.returning ≠ [] ∧ d.lacks .returning = true) ∨
          (d ≠ .sqlServer ∧ ∃ f ∈ q.returning, (Part.field f).Exceeds d)) ∨
      ((q.onConflict.isSome = true ∧ d.lacks .onConflict = true) ∨
        ∃ o ∈ q.onConflict, (Part.conflict o).Exceeds d) := by
  obtain ⟨distinctOn, fields, groupBy, having, orderBy⟩ := q.selects_nothing clauses operation
  obtain ⟨joins, -⟩ := q.joins_nothing clauses operation other
  rw [Part.exceeds_query, exceeds_reported]
  simp [distinctOn, fields, groupBy, having, orderBy, joins, q.locks_nothing clauses operation]

section Operations
variable {c : Context} {q : Query} {s : Sql}

theorem Query.hinges_select {distinct groupBy : Sql} (operation : q.operation = .select)
    (clauses : q.checkClauses = .ok ()) (rules : q.checkSelect = .ok ())
    (distinctly : renderDistinct c.dialect q.distinct q.distinctOn = .ok distinct)
    (groups : renderGroupBy c.dialect q.groupBy = .ok groupBy)
    (fields : ∀ f ∈ q.fields, d.Hinges ((Node.projected f).Exceeds d)
      ((Node.projected f).render (c.speaking d)).result)
    (joins : ∀ j ∈ q.joins, d.Hinges ((Node.join j).Exceeds d)
      ((Node.join j).render (c.speaking d)).result)
    (filter : ∀ x ∈ q.filter, d.Hinges ((Node.condition .whereClause false x).Exceeds d)
      ((Node.condition .whereClause false x).render (c.speaking d)).result)
    (having : ∀ x ∈ q.having, d.Hinges ((Node.condition .having false x).Exceeds d)
      ((Node.condition .having false x).render (c.speaking d)).result)
    (order : ∀ o ∈ q.orderBy, d.Hinges ((Node.ordered o).Exceeds d)
      ((Node.ordered o).render (c.speaking d)).result) :
    d.Hinges ((Part.query q).Exceeds d) (q.render (c.speaking d)).result := by
  obtain ⟨-, assignments, returning, conflict⟩ := q.reads_only clauses (.inl operation)
  rw [Part.exceeds_query, renderQuery_eq]
  simp only [renderOperation, operation, renderSelect, clauses, rules, Render.lift_eq,
    Render.ofExcept_ok_bind, Render.result_bind, Render.result_ofExcept, Context.speaking_dialect]
  refine ((renderDistinct_hinges (q.distinct_of_checkSelect rules) distinctly).bind fun _ =>
    (Dialect.Hinges.allOrEmpty fields).bind fun _ =>
    (renderLock_hinges q.lock).bind fun _ =>
    (renderJoins_hinges joins).bind fun _ =>
    (renderConditional_hinges filter).bind fun _ =>
    (renderGroupBy_hinges groups).bind fun _ =>
    (renderConditional_hinges having).bind fun _ =>
    (Dialect.Hinges.allOrEmpty order).arrange).congr ?_
  simp [assignments, returning, conflict, Node.Exceeds]

theorem Query.hinges_count (operation : q.operation = .count) (clauses : q.checkClauses = .ok ())
    (joins : ∀ j ∈ q.joins, d.Hinges ((Node.join j).Exceeds d)
      ((Node.join j).render (c.speaking d)).result)
    (filter : ∀ x ∈ q.filter, d.Hinges ((Node.condition .whereClause false x).Exceeds d)
      ((Node.condition .whereClause false x).render (c.speaking d)).result) :
    d.Hinges ((Part.query q).Exceeds d) (q.render (c.speaking d)).result := by
  have reads : q.operation ≠ .select := by simp [operation]
  obtain ⟨-, assignments, returning, conflict⟩ := q.reads_only clauses (.inr operation)
  obtain ⟨distinctOn, fields, groupBy, having, orderBy⟩ := q.selects_nothing clauses reads
  rw [Part.exceeds_query, renderQuery_eq]
  simp only [renderOperation, operation, renderCount, clauses, Render.lift_eq,
    Render.ofExcept_ok_bind, Render.result_bind]
  refine ((renderJoins_hinges joins).bind fun _ =>
    (renderConditional_hinges filter).arrange).congr ?_
  simp [assignments, returning, conflict, distinctOn, fields, groupBy, having, orderBy,
    q.locks_nothing clauses reads, Node.Exceeds]

theorem Query.hinges_insert {first : Row} {upsert : Sql} (operation : q.operation = .insert)
    (clauses : q.checkClauses = .ok ()) (shaped : checkRows q.rows = .ok first)
    (named : c.style = .named) (targeted : c.dialect.upsertStyle = .onConflict)
    (upserts : Upserts c q.onConflict upsert)
    (returns : renderReturning c.dialect q.returning = .ok s) :
    d.Hinges ((Part.query q).Exceeds d) (q.render (c.speaking d)).result := by
  obtain ⟨filter, assignments⟩ := q.inserts_only clauses operation
  have tuples := Dialect.Hinges.all fun row (_ : row ∈ q.rows) =>
    renderTuple_hinges (d := d) named row
  have bare : ¬∃ o ∈ q.onConflict, (Part.conflict o).Exceeds d := by
    rintro ⟨o, given, exceeds⟩
    rw [Option.mem_def.mp given] at upserts
    exact Part.not_exceeds_conflict targeted upserts exceeds
  rw [q.exceeds_writing clauses (by simp [operation]) (by simp [operation]), or_iff_left bare,
    filter, assignments, renderQuery_eq]
  simp only [renderOperation, operation, renderInsert, clauses, shaped, Render.lift_eq,
    Render.ofExcept_ok_bind, Render.result_bind, Render.result_ofExcept, Context.speaking_dialect]
  refine (tuples.bind fun _ => renderOutput_hinges.bind fun _ =>
    (renderUpsert_hinges named targeted upserts).bind fun _ =>
    (renderReturning_hinges (render_ok_of_returning targeted returns)).arrange).congr ?_
  simp only [Option.not_mem_none, List.not_mem_nil, false_and, and_false, exists_false, false_or]
  exact or_assoc.trans (or_congr_right or_comm)

theorem Query.hinges_update (operation : q.operation = .update)
    (clauses : q.checkClauses = .ok ()) (some : q.assignments.isEmpty = false)
    (plain : ∀ a ∈ q.assignments, a.field.isPlain = true)
    (unrepeated :
      repeatedNeighbour? (sortAssignments (q.assignments.map fun a => (a.field, a))) = none)
    (values : ∀ a ∈ q.assignments, d.Hinges ((Node.assigned a.value).Exceeds d)
      ((Node.assigned a.value).render (c.speaking d)).result)
    (filter : ∀ x ∈ q.filter, d.Hinges ((Part.condition x).Exceeds d)
      ((Node.condition .whereClause false x).render (c.speaking d)).result)
    (targeted : c.dialect.upsertStyle = .onConflict)
    (returns : renderReturning c.dialect q.returning = .ok s) :
    d.Hinges ((Part.query q).Exceeds d) (q.render (c.speaking d)).result := by
  obtain ⟨-, conflict⟩ := q.inserts_nothing clauses (.inl operation)
  have values : ∀ a ∈ q.assignments, d.Hinges ((Part.assignment a).Exceeds d)
      ((Node.assigned a.value).render (c.speaking d)).result := fun a member =>
    (values a member).congr (Part.exceeds_assignment (plain a member))
  rw [q.exceeds_writing clauses (by simp [operation]) (by simp [operation]), conflict,
    renderQuery_eq]
  simp only [renderOperation, operation, renderUpdate, clauses, some, Bool.false_eq_true,
    ↓reduceIte, Render.lift_eq, Render.ofExcept_ok_bind, Render.result_bind,
    Render.result_ofExcept, Context.speaking_dialect]
  refine ((renderAssignments_hinges unrepeated plain values).bind fun _ =>
    renderOutput_hinges.bind fun _ => (renderConditional_hinges filter).bind fun _ =>
    (renderReturning_hinges (render_ok_of_returning targeted returns)).arrange).congr ?_
  simp only [Option.isSome_none, Bool.false_eq_true, Option.not_mem_none, false_and,
    exists_false, or_false]
  rw [or_left_comm]
  exact or_congr_right or_left_comm

theorem Query.hinges_delete (operation : q.operation = .delete)
    (clauses : q.checkClauses = .ok ())
    (filter : ∀ x ∈ q.filter, d.Hinges ((Part.condition x).Exceeds d)
      ((Node.condition .whereClause false x).render (c.speaking d)).result)
    (targeted : c.dialect.upsertStyle = .onConflict)
    (returns : renderReturning c.dialect q.returning = .ok s) :
    d.Hinges ((Part.query q).Exceeds d) (q.render (c.speaking d)).result := by
  obtain ⟨-, conflict⟩ := q.inserts_nothing clauses (.inr operation)
  rw [q.exceeds_writing clauses (by simp [operation]) (by simp [operation]), conflict,
    q.assigns_nothing clauses operation, renderQuery_eq]
  simp only [renderOperation, operation, renderDelete, clauses, Render.lift_eq,
    Render.ofExcept_ok_bind, Render.result_bind, Render.result_ofExcept, Context.speaking_dialect]
  refine (renderOutput_hinges.bind fun _ => (renderConditional_hinges filter).bind fun _ =>
    (renderReturning_hinges (render_ok_of_returning targeted returns)).arrange).congr ?_
  simp only [Option.isSome_none, Bool.false_eq_true, Option.not_mem_none, List.not_mem_nil,
    false_and, exists_false, false_or, or_false]
  exact or_left_comm

end Operations
end Queries

section Pairs
variable {β : Type}

theorem unrepeated_fst {xs : List Assignment} {pairs : List (Assignment × β)}
    (listed : xs = pairs.map Prod.fst)
    (unrepeated :
      repeatedNeighbour? (sortAssignments (pairs.map fun p => (p.1.field, p.2))) = none) :
    repeatedNeighbour? (sortAssignments (xs.map fun a => (a.field, a))) = none := by
  rw [sortAssignments_snd Assignment.field, repeatedNeighbour?_map] at unrepeated
  rw [listed, sortAssignments_fst, repeatedNeighbour?_map, unrepeated]

end Pairs

/-- What renders for a dialect that resolves conflicts by a target, with named placeholders,
    hinges for every other dialect on what that one lacks. -/
theorem Renders.hinges {c : Context} {n : Node} {s : Sql} (made : Renders c n s)
    (named : c.style = .named) (targeted : c.dialect.upsertStyle = .onConflict) (d : Dialect) :
    d.Hinges (n.Exceeds d) (n.render (c.speaking d)).result := by
  induction made with
  | field columned =>
    rw [Node.Exceeds, Part.exceeds_iff]
    exact (Field.hinges columned).congr (by simp [Part.asks, Part.parts, Expr.parts])
  | aggregate columned =>
    rw [Node.Exceeds, Part.exceeds_iff]
    exact (renderAggregate_none_hinges columned).congr (by simp [Part.asks, Part.parts, Expr.parts])
  | filtered columned _ _ filters | chosen columned _ _ filters =>
    rw [Node.Exceeds, Part.exceeds_iff]
    refine (renderAggregate_some_hinges columned (filters named targeted)).congr ?_
    simp [Part.asks, Part.parts, Expr.parts, Node.Exceeds, or_and_right, exists_or]
  | @case c whens branched _ branches =>
    have each : ∀ w ∈ whens.map Prod.fst, d.Hinges ((Node.whenClause w).Exceeds d)
        ((Node.whenClause w).render (c.speaking d)).result :=
      forall_fst rfl fun w member => branches w member named targeted
    rw [Node.Exceeds, Part.exceeds_iff, Node.render, Expr.render, renderWhens_eq]
    refine (renderCase_hinges (by simpa using branched) named each none).congr ?_
    simp [Part.asks, Part.parts, Expr.parts, Node.Exceeds]
  | @caseElse c whens otherwise branched _ _ branches =>
    have each : ∀ w ∈ whens.map Prod.fst, d.Hinges ((Node.whenClause w).Exceeds d)
        ((Node.whenClause w).render (c.speaking d)).result :=
      forall_fst rfl fun w member => branches w member named targeted
    rw [Node.Exceeds, Part.exceeds_iff, Node.render, Expr.render, renderWhens_eq]
    refine (renderCase_hinges (by simpa using branched) named each (some otherwise)).congr ?_
    simp [Part.asks, Part.parts, Expr.parts, Node.Exceeds]
  | coalesce several rendered =>
    rw [Node.Exceeds, Part.exceeds_iff]
    refine (renderCoalesce_hinges (by rwa [List.length_map]) (forall_fst rfl fun o member =>
      Operand.hinges named (rendered o member))).congr ?_
    simp [Part.asks, Part.parts, Expr.parts]
  | nullIf first second =>
    rw [Node.Exceeds, Part.exceeds_iff]
    exact (renderNullIf_hinges named first second).congr (by simp [Part.asks, Part.parts, Expr.parts])
  | math columned argument | mathWith columned argument =>
    rw [Node.Exceeds, Part.exceeds_iff]
    exact (MathCall.render_hinges named columned argument).congr
      (by simp [Part.asks, Part.parts, Expr.parts])
  | cast columned =>
    rw [Node.Exceeds, Part.exceeds_iff]
    exact (renderCast_hinges columned).congr (by simp [Part.asks, Part.parts, Expr.parts])
  | @window c w call partitioned framed items called partition listed _ frame order =>
    obtain ⟨function, f, bucket, offset, fallback, ⟨partitionBy, orderBy, bounds⟩⟩ := w
    have each : ∀ o ∈ orderBy, d.Hinges ((Node.ordered o).Exceeds d)
        ((Node.ordered o).render (c.speaking d)).result :=
      forall_fst listed fun o member => order o member named targeted
    rw [Node.Exceeds, Part.exceeds_iff, Node.render, Expr.render, renderOrder_eq]
    refine (WindowCall.render_hinges named called partition frame each).congr ?_
    simp [Part.asks, Part.parts, Expr.parts, Node.Exceeds, or_and_right, exists_or]
  | binary columned =>
    rw [Node.Exceeds, Part.exceeds_iff]
    exact (renderBinary_hinges named columned _).congr (by simp [Part.asks, Part.parts, Expr.parts])
  | projected _ plain | aliased _ plain =>
    rw [Node.Exceeds, Part.exceeds_iff]
    exact (renderFieldExpr_hinges (plain named targeted) _).congr
      (by simp [Part.asks, Part.parts, Node.Exceeds])
  | ordered _ plain | orderedNulls _ _ plain =>
    rw [Node.Exceeds, Part.exceeds_iff]
    exact (renderOrderItem_hinges (plain named targeted) _ _).congr
      (by simp [Part.asks, Part.parts, Node.Exceeds])
  | whenClause _ _ holds =>
    rw [Node.Exceeds, Part.exceeds_iff]
    exact (renderWhen_hinges named (holds named targeted) _).congr
      (by simp [Part.asks, Part.parts, Node.Exceeds])
  | null columned unary =>
    rw [Node.Exceeds, Part.exceeds_iff]
    exact (renderSimple_null_hinges columned unary).congr
      (by simp [Part.asks, Part.parts, Condition.parts])
  | simple columned binary takes =>
    rw [Node.Exceeds, Part.exceeds_iff]
    exact (renderSimple_param_hinges named columned binary takes _).congr
      (by simp [Part.asks, Part.parts, Condition.parts])
  | only _ single =>
    rw [Node.Exceeds, Part.exceeds_iff]
    exact (single named targeted).congr
      (by simp [Part.asks, Part.parts, Condition.parts, Node.Exceeds])
  | @group c scope nested op items several _ members =>
    have enough : 2 ≤ (items.map Prod.fst).length := by rwa [List.length_map]
    rw [Node.Exceeds, Part.exceeds_iff]
    exact (renderGroup_hinges nested enough (forall_fst rfl fun x member =>
      members x member named targeted)).congr (by simp [Part.asks, Part.parts, Condition.parts])
  | fieldComparison comparing first second =>
    rw [Node.Exceeds, Part.exceeds_iff]
    exact (renderFieldComparison_hinges comparing first second).congr
      (by simp [Part.asks, Part.parts, Condition.parts])
  | subquery started reading entered _ inner =>
    have below := inner (by rw [Context.style_of_enter entered, named])
      (by rw [Context.dialect_of_enter entered, targeted])
    rw [Node.Exceeds, Part.exceeds_iff]
    refine (renderSubquery_hinges started reading entered below).congr ?_
    simp [Part.asks, Part.parts, Condition.parts, Node.Exceeds, or_and_right, exists_or]
  | between columned =>
    rw [Node.Exceeds, Part.exceeds_iff]
    exact (renderBetween_hinges named columned _ _ _).congr
      (by simp [Part.asks, Part.parts, Condition.parts])
  | aggregateCondition comparing columned =>
    rw [Node.Exceeds, Part.exceeds_iff]
    exact (renderAggregateCondition_hinges named comparing columned _).congr
      (by simp [Part.asks, Part.parts, Condition.parts])
  | expression comparing placed _ _ computed =>
    rw [Node.Exceeds, Part.exceeds_iff]
    exact (renderExpressionCondition_hinges named comparing placed (computed named targeted) _).congr
      (by simp [Part.asks, Part.parts, Condition.parts, Node.Exceeds])
  | crossJoin formed =>
    rw [Node.Exceeds, Part.exceeds_iff]
    exact (renderJoin_none_hinges formed).congr (by simp [Part.asks, Part.parts])
  | join formed _ _ matching =>
    rw [Node.Exceeds, Part.exceeds_iff]
    exact (renderJoin_some_hinges formed (matching named targeted)).congr
      (by simp [Part.asks, Part.parts, Node.Exceeds])
  | assignedParam => exact Context.param_hinges named _
  | assignedExpr admitted _ computed =>
    simp only [Node.render, renderAssigned, admitted, Render.lift_eq, Render.ofExcept_ok_bind]
    exact computed named targeted
  | select operation clauses rules distinctly fieldsListed _ _ joinsListed _ filterGiven _ groups
      havingGiven _ itemsListed _ projects joined filters havings order =>
    exact Query.hinges_select operation clauses rules distinctly groups
      (forall_fst fieldsListed fun f member => projects f member named targeted)
      (forall_fst joinsListed fun j member => joined j member named targeted)
      (forall_fst_option filterGiven fun x member => filters x member named targeted)
      (forall_fst_option havingGiven fun x member => havings x member named targeted)
      (forall_fst itemsListed fun o member => order o member named targeted)
  | count operation clauses joinsListed _ filterGiven _ joined filters =>
    exact Query.hinges_count operation clauses
      (forall_fst joinsListed fun j member => joined j member named targeted)
      (forall_fst_option filterGiven fun x member => filters x member named targeted)
  | insert operation clauses shaped _ _ upserts returns =>
    exact Query.hinges_insert operation clauses shaped named targeted upserts returns
  | @update c q output returning sets filter operation clauses assigned setsListed _ plain
      unrepeated _ filterGiven _ returns values filters =>
    exact Query.hinges_update operation clauses (by simpa [setsListed] using assigned)
      (forall_fst setsListed plain)
      (unrepeated_fst setsListed unrepeated)
      (forall_fst setsListed fun a member => values a member named targeted)
      (forall_fst_option filterGiven fun x member => filters x member named targeted)
      targeted returns
  | delete operation clauses _ filterGiven _ returns filters =>
    exact Query.hinges_delete operation clauses
      (forall_fst_option filterGiven fun x member => filters x member named targeted)
      targeted returns

end TypedSql
