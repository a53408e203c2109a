import TypedSql.Proofs.Render.Refused
import TypedSql.Proofs.Render.Statement

namespace TypedSql

theorem CompoundPart.render_hinges {c : Context} {part : CompoundPart} {s : Sql}
    (made : Renders c (.query part.query) s) (named : c.style = .named)
    (targeted : c.dialect.upsertStyle = .onConflict) (d : Dialect) :
    d.Hinges (d.lacks (.setOperation part.op) = true ∨ (Part.query part.query).Exceeds d)
      (part.render (c.speaking d)).result := by
  simp only [CompoundPart.render, Render.lift_eq, Render.result_bind, Render.result_ofExcept]
  exact (Dialect.Hinges.require (by simp)).bind fun _ =>
    (made.hinges named targeted d).arrange

theorem CompoundQuery.exceeds_iff {d : Dialect} {q : CompoundQuery} :
    (Part.compound q).Exceeds d ↔ (Part.query q.base).Exceeds d ∨
      (∃ part ∈ q.parts,
        d.lacks (.setOperation part.op) = true ∨ (Part.query part.query).Exceeds d) ∨
      ∃ o ∈ q.orderBy, (Part.ordered o).Exceeds d := by
  rw [Part.exceeds_iff]
  simp only [Part.asks, Part.parts, List.cons_append, List.mem_cons, List.mem_append, List.mem_map,
    exists_exists_and_eq_and, or_and_right, and_or_left, exists_or, exists_eq_left]
  -- the same alternatives, in the order that the query is rendered in
  apply iff_of_eq
  ac_rfl

theorem Statement.Renders.hinges {c : Context} {statement : Statement} {s : Sql}
    (made : statement.Renders c s) (named : c.style = .named)
    (targeted : c.dialect.upsertStyle = .onConflict) (d : Dialect) :
    d.Hinges ((Part.statement statement).Exceeds d) (statement.render (c.speaking d)).result := by
  rw [Part.exceeds_iff]
  cases made with
  | query made =>
    exact (made.hinges named targeted d).congr (by simp [Part.asks, Part.parts, Node.Exceeds])
  | @compound q base parts items several operands first partsListed _ more itemsListed order =>
    have some : q.parts.isEmpty = false := by simpa using several
    have eachPart : ∀ part ∈ q.parts,
        d.Hinges (d.lacks (.setOperation part.op) = true ∨ (Part.query part.query).Exceeds d)
          (part.render (c.speaking d)).result :=
      forall_fst partsListed fun p member =>
        CompoundPart.render_hinges (more p member) named targeted d
    have eachItem : ∀ o ∈ q.orderBy, d.Hinges ((Part.ordered o).Exceeds d)
        ((Node.ordered o).render (c.speaking d)).result :=
      forall_fst itemsListed fun o member => (order o member).hinges named targeted d
    have base : d.Hinges ((Part.query q.base).Exceeds d) (q.base.render (c.speaking d)).result :=
      first.hinges named targeted d
    simp only [Statement.render, CompoundQuery.render, some, Bool.false_eq_true, ↓reduceIte,
      operands, renderOrder_eq, Render.lift_eq, Render.ofExcept_ok_bind, Render.result_bind]
    refine (base.bind fun _ => (Dialect.Hinges.all eachPart).bind fun _ =>
      (Dialect.Hinges.allOrEmpty eachItem).arrange).congr ?_
    simp only [Part.asks, Part.parts, List.not_mem_nil, false_and, exists_false, false_or,
      List.mem_singleton, exists_eq_left, CompoundQuery.exceeds_iff]

/-- Capabilities are all that sets the dialects apart. What renders for PostgreSQL renders for
    another dialect too, or is refused in that dialect's name for something it lacks; and it is
    refused exactly when some constituent, at any depth, demands what the dialect lacks. -/
theorem Statement.refused_iff_exceeds {statement : Statement} {depth : UInt64} {r : Rendered}
    (rendered : statement.toSql
      { dialect := .postgres, placeholders := .named, maxSubqueryDepth := depth } = .ok r)
    (d : Dialect) :
    let sent := statement.toSql
      { dialect := d, placeholders := .named, maxSubqueryDepth := depth }
    ((∃ r', sent = .ok r') ∨
      ∃ feature, d.lacks feature = true ∧ sent = .error (.unsupported d feature)) ∧
    ((∃ e, sent = .error e) ↔
      ∃ feature, (Part.statement statement).Demands feature ∧ d.lacks feature = true) := by
  obtain ⟨s, made, -⟩ := Statement.toSql_ok_iff.mp rendered
  have hinges := made.hinges rfl rfl d
  intro sent
  obtain ⟨spell, run⟩ := RenderOptions.run_eq_map
    { dialect := d, placeholders := .named, maxSubqueryDepth := depth } statement.render
  have sending : d.Hinges ((Part.statement statement).Exceeds d) sent := by
    show d.Hinges _ (RenderOptions.run _ statement.render)
    rw [run]
    exact hinges.map
  rcases sending with ⟨enough, r', made⟩ | ⟨short, feature, lacking, refused⟩
  · refine ⟨.inl ⟨r', made⟩, ?_⟩
    rw [made]
    exact iff_of_false nofun enough
  · refine ⟨.inr ⟨feature, lacking, refused⟩, ?_⟩
    rw [refused]
    exact iff_of_true ⟨_, rfl⟩ short

def pathBelow : Statement :=
  let entered : Field := { name := "data", path := some { segments := [.index 0] } }
  let lower : Query :=
    { operation := .select, table := { name := "c" },
      filter := some (.simple entered .isNull none) }
  let upper : Query :=
    { operation := .select, table := { name := "b" }, filter := some (.subquery none .exists lower) }
  .query
    { operation := .select, table := { name := "a" }, filter := some (.subquery none .exists upper) }

def pathBelowSent : Rendered where
  sql := "SELECT * FROM \"a\" WHERE EXISTS (SELECT * FROM \"b\" WHERE EXISTS " ++
    "(SELECT * FROM \"c\" WHERE \"data\"->0 IS NULL))"
  params := []

theorem pathBelow_refused :
    pathBelow.toSql { dialect := .postgres, placeholders := .named, maxSubqueryDepth := 3 } =
        .ok pathBelowSent ∧
      ∃ feature, (Part.statement pathBelow).Demands feature ∧
        Dialect.sqlite.lacks feature = true := by
  have rendered : pathBelow.toSql
      { dialect := .postgres, placeholders := .named, maxSubqueryDepth := 3 } =
        .ok pathBelowSent := rfl
  have refused : pathBelow.toSql
      { dialect := .sqlite, placeholders := .named, maxSubqueryDepth := 3 } =
        .error (.unsupported .sqlite .jsonPath) := rfl
  exact ⟨rendered, (Statement.refused_iff_exceeds rendered .sqlite).2.mp ⟨_, refused⟩⟩

end TypedSql
