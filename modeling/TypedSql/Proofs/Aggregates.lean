import TypedSql.Proofs.Render.Constituents

namespace TypedSql

namespace Part

/-- Whether a constituent is the call of an aggregate, as an expression or in a condition. -/
def isAggregate : Part → Bool
  | .expr (.aggregate _) | .condition (.aggregate _ _ _ _) => true
  | _ => false

/-- The conditions that hold for single rows: of WHERE, of a join, of a CASE branch and of what
    an aggregate is taken over. -/
def rowConditions : Part → List Condition
  | .query q => q.filter.toList
  | .join j => j.on.toList
  | .whenClause w => [w.condition]
  | .expr (.aggregate call) => call.filter.toList
  | _ => []

/-- That a constituent occurs in another and in no query further below. -/
def Inside (p whole : Part) : Prop :=
  Relation.ReflTransGen
    (fun below above : Part => below ∈ above.parts ∧ ∀ q, above ≠ .query q) p whole

/-- What can stand below a condition on single rows. A query ends the search, and what stands in
    no other place than a condition need not be followed. -/
def RowLevel : Part → Prop
  | .condition x => ∃ scope nested, scope ≠ .having ∧ (Node.condition scope nested x).Rendered
  | .expr e => e.isAggregate = false ∧ (Node.expr e).Rendered
  | .whenClause w => (Node.whenClause w).Rendered
  | .query _ | .operand _ | .field _ | .name _ _ => True
  | _ => False

theorem RowLevel.isAggregate_eq {p : Part} (row : p.RowLevel) : p.isAggregate = false := by
  cases p with
  | expr e =>
    obtain ⟨plain, -⟩ := row
    cases e with
    | aggregate => cases plain
    | _ => rfl
  | condition x =>
    cases x with
    | aggregate kind f op p =>
      obtain ⟨scope, nested, other, c, s, made⟩ := row
      cases made
      exact absurd rfl other
    | _ => rfl
  | _ => rfl

section Steps
variable {whole part : Part}

theorem rowLevel_of_expr {e : Expr} (row : (Part.expr e).RowLevel) (member : part ∈ e.parts) :
    part.RowLevel ∨ ∃ w o, e = .window w ∧ o ∈ w.window.orderBy ∧ part = .ordered o := by
  obtain ⟨plain, c, s, made⟩ := row
  cases e with
  | aggregate => cases plain
  | case cases =>
    have branch := Expr.parts_rendered made part member
    obtain ⟨w, -, rfl⟩ := List.mem_map.mp member
    exact .inl branch
  | window w =>
    simp only [Expr.parts, List.mem_append, List.mem_map] at member
    rcases member with (⟨f, -, rfl⟩ | ⟨f, -, rfl⟩) | ⟨o, inside, rfl⟩
    · exact .inl trivial
    · exact .inl trivial
    · exact .inr ⟨w, o, rfl, inside, rfl⟩
  | coalesce operands =>
    obtain ⟨o, -, rfl⟩ := List.mem_map.mp member
    exact .inl trivial
  | nullIf left right =>
    rcases List.mem_pair.mp member with rfl | rfl <;> exact .inl trivial
  | field | math | cast | binary =>
    obtain rfl := List.mem_singleton.mp member
    exact .inl trivial

theorem rowLevel_of_condition {x : Condition} (row : (Part.condition x).RowLevel)
    (member : part ∈ x.parts) : part.RowLevel := by
  obtain ⟨scope, nested, other, c, s, made⟩ := row
  cases x with
  | group op items =>
    obtain ⟨x, inside, rfl⟩ := List.mem_map.mp member
    cases made with
    | only single =>
      obtain rfl := List.mem_singleton.mp inside
      exact ⟨scope, nested, other, c, s, single⟩
    | group _ members =>
      obtain ⟨p, listed, rfl⟩ := List.mem_map.mp inside
      exact ⟨scope, true, other, c, _, members p listed⟩
  | subquery f op q =>
    simp only [Condition.parts, List.mem_append, List.mem_map, List.mem_singleton] at member
    rcases member with ⟨f, -, rfl⟩ | rfl <;> trivial
  | aggregate kind f op p =>
    obtain ⟨f, -, rfl⟩ := List.mem_map.mp member
    trivial
  | expression e op p =>
    obtain rfl := List.mem_singleton.mp member
    cases made with
    | expression _ placed computed =>
      have plain : e.isAggregate = false :=
        Bool.eq_false_iff.mpr fun aggregate => other (placed aggregate)
      exact ⟨plain, c, _, computed⟩
  | fieldComparison left op right =>
    rcases List.mem_pair.mp member with rfl | rfl <;> trivial
  | simple | between =>
    obtain rfl := List.mem_singleton.mp member
    trivial

theorem RowLevel.step (row : whole.RowLevel) (member : part ∈ whole.parts)
    (inner : ∀ q, whole ≠ .query q) :
    part.RowLevel ∨
      ∃ w o, whole = .expr (.window w) ∧ o ∈ w.window.orderBy ∧ part = .ordered o := by
  cases whole with
  | query q => exact absurd rfl (inner q)
  | expr e =>
    rcases rowLevel_of_expr row member with row | ⟨w, o, rfl, inside, rfl⟩
    · exact .inl row
    · exact .inr ⟨w, o, rfl, inside, rfl⟩
  | condition x => exact .inl (rowLevel_of_condition row member)
  | whenClause w =>
    obtain rfl := List.mem_singleton.mp member
    obtain ⟨c, s, made⟩ := row
    cases made with
    | whenClause holds => exact .inl ⟨.caseWhen, false, by simp, c, _, holds⟩
  | operand o =>
    cases o with
    | field f =>
      obtain rfl := List.mem_singleton.mp member
      exact .inl trivial
    | param => cases member
  | field f =>
    obtain ⟨kind, name, rfl⟩ := name_of_mem_field member
    exact .inl trivial
  | name => cases member
  | statement | compound | projected | join | assignment | ordered | row | conflict | table =>
    cases row

end Steps

/-- The only way to an aggregate leads through the order of a window. -/
theorem RowLevel.ordered_of_inside {a whole : Part} (inside : a.Inside whole) (row : whole.RowLevel)
    (aggregate : a.isAggregate = true) :
    ∃ w o, (Part.expr (.window w)).Inside whole ∧ o ∈ w.window.orderBy ∧ a.Inside (.ordered o) := by
  induction inside with
  | refl => simp [row.isAggregate_eq] at aggregate
  | tail below member ih =>
    rcases row.step member.1 member.2 with row | ⟨w, o, rfl, listed, rfl⟩
    · obtain ⟨w, o, window, listed, inside⟩ := ih row
      exact ⟨w, o, window.tail member, listed, inside⟩
    · exact ⟨w, o, .refl, listed, below⟩

theorem rowLevel_of_rowConditions {whole : Part} (rendered : whole.Rendered) {x : Condition}
    (row : x ∈ whole.rowConditions) : (Part.condition x).RowLevel := by
  cases whole with
  | query q =>
    obtain ⟨c, s, made⟩ := rendered
    exact ⟨.whereClause, false, by simp, c,
      (q.clauses_render made).filter x (Option.mem_toList.mp row)⟩
  | join j =>
    obtain ⟨c, s, made⟩ := rendered
    cases made with
    | crossJoin => cases row
    | join _ _ matching =>
      obtain rfl := List.mem_singleton.mp row
      exact ⟨.joinOn, false, by simp, c, _, matching⟩
  | whenClause w =>
    obtain rfl := List.mem_singleton.mp row
    obtain ⟨c, s, made⟩ := rendered
    cases made with
    | whenClause holds => exact ⟨.caseWhen, false, by simp, c, _, holds⟩
  | expr e =>
    obtain ⟨c, s, made⟩ := rendered
    cases made with
    | filtered _ _ filters | chosen _ _ filters =>
      obtain rfl := List.mem_singleton.mp row
      exact ⟨.filter, false, by simp, c, _, filters⟩
    | _ => cases row
  | _ => cases row

end Part

/-- An aggregate in a condition on single rows stands in what a window is ordered by, or the
    statement is refused: an aggregate is looked for at the top of the expression that is compared,
    and the items of an order are rendered as those of a query are. -/
theorem Statement.aggregates_in_rowConditions {statement : Statement} {options : RenderOptions}
    {r : Rendered} (sent : statement.toSql options = .ok r) {whole : Part}
    (within : whole.Within (.statement statement)) {x : Condition} (row : x ∈ whole.rowConditions)
    {a : Part} (aggregate : a.isAggregate = true) :
    a.Inside (.condition x) ↔
      ∃ w o, (Part.expr (.window w)).Inside (.condition x) ∧ o ∈ w.window.orderBy ∧
        a.Inside (.ordered o) := by
  constructor
  · intro inside
    have rendered := (Statement.rendered_of_toSql sent).within within
    exact (Part.rowLevel_of_rowConditions rendered row).ordered_of_inside inside aggregate
  · rintro ⟨w, o, window, listed, inside⟩
    have member : Part.ordered o ∈ (Part.expr (.window w)).parts := by
      simp [Part.parts, Expr.parts, listed]
    exact (inside.tail ⟨member, by simp⟩).trans window

def countOfRows : Expr := .aggregate ⟨.count, none, none⟩

def rankByCount : WindowCall :=
  ⟨.rank, none, none, none, none, ⟨[], [⟨countOfRows, .asc, none⟩], none⟩⟩

def ranksAbove : Condition := .expression (.window rankByCount) .gt ⟨"n", by decide⟩

def rankedByCount : Query where
  operation := .select
  table := { name := "t" }
  filter := some ranksAbove

theorem rankedByCount_renders (d : Dialect) :
    ∃ r, (Statement.query rankedByCount).toSql { dialect := d } = .ok r := by
  cases d <;> exact ⟨_, rfl⟩

theorem countOfRows_inside : (Part.expr countOfRows).Inside (.condition ranksAbove) := by
  have ordered : (Part.expr countOfRows).Inside (.ordered ⟨countOfRows, .asc, none⟩) :=
    .single ⟨List.mem_cons_self, by simp⟩
  have window : (Part.expr countOfRows).Inside (.expr (.window rankByCount)) :=
    ordered.tail ⟨List.mem_cons_self, by simp⟩
  exact window.tail ⟨List.mem_cons_self, by simp⟩

theorem rankedByCount_ordered :
    (∃ r, (Statement.query rankedByCount).toSql {} = .ok r) ∧
      (Part.query rankedByCount).Within (.statement (.query rankedByCount)) ∧
      ranksAbove ∈ (Part.query rankedByCount).rowConditions ∧
      (Part.expr countOfRows).isAggregate = true ∧
      ∃ w o, (Part.expr (.window w)).Inside (.condition ranksAbove) ∧ o ∈ w.window.orderBy ∧
        (Part.expr countOfRows).Inside (.ordered o) := by
  obtain ⟨r, sent⟩ := rankedByCount_renders .postgres
  have within : (Part.query rankedByCount).Within (.statement (.query rankedByCount)) :=
    .single List.mem_cons_self
  have row : ranksAbove ∈ (Part.query rankedByCount).rowConditions := List.mem_cons_self
  exact ⟨⟨r, sent⟩, within, row, rfl,
    (Statement.aggregates_in_rowConditions sent within row rfl).mp countOfRows_inside⟩

/-- Aggregates do stay in conditions on single rows, and every dialect is sent them. -/
theorem rankedByCount_in_filter :
    (∀ d : Dialect, ∃ r, (Statement.query rankedByCount).toSql { dialect := d } = .ok r) ∧
      ¬∀ (statement : Statement) (options : RenderOptions) (r : Rendered),
        statement.toSql options = .ok r → ∀ whole : Part, whole.Within (.statement statement) →
          ∀ x ∈ whole.rowConditions, ∀ a : Part, a.isAggregate = true →
            ¬a.Inside (.condition x) := by
  refine ⟨rankedByCount_renders, fun kept => ?_⟩
  obtain ⟨r, sent⟩ := rankedByCount_renders .postgres
  exact kept _ _ r sent (.query rankedByCount) (.single List.mem_cons_self) ranksAbove
    List.mem_cons_self (.expr countOfRows) rfl countOfRows_inside

end TypedSql
