import TypedSql.Proofs.Aggregates

namespace TypedSql

namespace Part

def isWindow : Part → Bool
  | .expr (.window _) => true
  | _ => false

def SetLevel : Part → Prop
  | .assignment a => (Part.assignment a).Rendered
  | p => p.RowLevel ∧ p.isWindow = false

section Steps
variable {whole part : Part}

theorem SetLevel.isCall_eq (set : whole.SetLevel) :
    whole.isAggregate = false ∧ whole.isWindow = false := by
  cases whole with
  | assignment a => exact ⟨rfl, rfl⟩
  | _ => exact ⟨set.1.isAggregate_eq, set.2⟩

theorem setLevel_of_assignment {a : Assignment} (set : (Part.assignment a).SetLevel)
    (member : part ∈ (Part.assignment a).parts) : part.SetLevel := by
  obtain ⟨target, value⟩ := a
  obtain ⟨c, s, made⟩ := set
  cases made with
  | assignedParam =>
    obtain rfl := List.mem_singleton.mp member
    exact ⟨trivial, rfl⟩
  | @assignedExpr _ e _ admitted computed =>
    rcases List.mem_pair.mp member with rfl | rfl
    · exact ⟨trivial, rfl⟩
    · cases e with
      | aggregate | window => cases admitted
      | _ => exact ⟨⟨rfl, c, s, computed⟩, rfl⟩

theorem RowLevel.compared_of_window (row : whole.RowLevel) {w : WindowCall}
    (member : Part.expr (.window w) ∈ whole.parts) :
    ∃ op p, whole = .condition (.expression (.window w) op p) := by
  cases whole with
  | condition x =>
    cases x with
    | expression e op p =>
      obtain rfl : Expr.window w = e := Part.expr.inj (List.mem_singleton.mp member)
      exact ⟨op, p, rfl⟩
    | _ => simp [Part.parts, Condition.parts] at member
  | expr e => cases e <;> simp [Part.parts, Expr.parts] at member
  | query q => simp [Part.parts, Query.parts] at member
  | whenClause w => simp [Part.parts] at member
  | operand o => cases o <;> simp [Part.parts, Operand.parts] at member
  | field f =>
    obtain ⟨kind, name, named⟩ := name_of_mem_field member
    cases named
  | name => cases member
  | _ => cases row

theorem RowLevel.setLevel {p : Part} (row : p.RowLevel) (other : p.isWindow = false) :
    p.SetLevel := by
  cases p with
  | assignment a => cases row
  | _ => exact ⟨row, other⟩

theorem RowLevel.step_or_compared (row : whole.RowLevel) (other : whole.isWindow = false)
    (member : part ∈ whole.parts) (inner : ∀ q, whole ≠ .query q) :
    part.SetLevel ∨
      ∃ w op p, whole = .condition (.expression (.window w) op p) ∧ part = .expr (.window w) := by
  have below : part.RowLevel := by
    rcases row.step member inner with below | ⟨w, o, rfl, -, -⟩
    · exact below
    · cases other
  cases window : part.isWindow with
  | false => exact .inl (below.setLevel window)
  | true =>
    obtain ⟨w, rfl⟩ : ∃ w, part = .expr (.window w) := by
      unfold isWindow at window
      split at window
      · exact ⟨_, rfl⟩
      · cases window
    obtain ⟨op, p, rfl⟩ := row.compared_of_window member
    exact .inr ⟨w, op, p, rfl, rfl⟩

theorem SetLevel.step (set : whole.SetLevel) (member : part ∈ whole.parts)
    (inner : ∀ q, whole ≠ .query q) :
    part.SetLevel ∨
      ∃ w op p, whole = .condition (.expression (.window w) op p) ∧ part = .expr (.window w) := by
  cases whole with
  | assignment a => exact .inl (setLevel_of_assignment set member)
  | _ => exact set.1.step_or_compared set.2 member inner

end Steps

/-- The only way to an aggregate or a window leads through a window that is compared. -/
theorem SetLevel.compared_of_inside {p whole : Part} (inside : p.Inside whole)
    (set : whole.SetLevel) (call : p.isAggregate = true ∨ p.isWindow = true) :
    ∃ w op q, (Part.condition (.expression (.window w) op q)).Inside whole ∧
      p.Inside (.expr (.window w)) := by
  induction inside with
  | refl => simp [set.isCall_eq] at call
  | tail below member ih =>
    rcases set.step member.1 member.2 with set | ⟨w, op, q, rfl, rfl⟩
    · obtain ⟨w, op, q, compared, inside⟩ := ih set
      exact ⟨w, op, q, compared.tail member, inside⟩
    · exact ⟨w, op, q, .refl, below⟩

end Part

/-- A call of an aggregate or a window in the value of an assignment stands in a window that a
    condition compares, or the statement is refused: the value is looked at from outside, and
    the conditions of a choice let windows pass. -/
theorem Statement.calls_in_assignments {statement : Statement} {options : RenderOptions}
    {r : Rendered} (sent : statement.toSql options = .ok r) {a : Assignment}
    (within : (Part.assignment a).Within (.statement statement)) {p : Part}
    (call : p.isAggregate = true ∨ p.isWindow = true) :
    p.Inside (.assignment a) ↔
      ∃ w op q, (Part.condition (.expression (.window w) op q)).Inside (.assignment a) ∧
        p.Inside (.expr (.window w)) := by
  constructor
  · intro inside
    have rendered : (Part.assignment a).Rendered := (Statement.rendered_of_toSql sent).within within
    exact Part.SetLevel.compared_of_inside inside rendered call
  · rintro ⟨w, op, q, compared, inside⟩
    exact (inside.tail ⟨List.mem_singleton.mpr rfl, by simp⟩).trans compared

def rankOfRows : WindowCall := ⟨.rank, none, none, none, none, ⟨[], [], none⟩⟩

def lowestRank : Param := ⟨"lowest", by decide⟩

def belowLowest : Condition := .expression (.window rankOfRows) .gt lowestRank

def markBelow : Assignment :=
  ⟨{ name := "mark" }, .expr (.case ⟨[⟨belowLowest, lowestRank⟩], none⟩)⟩

def markedByRank : Query where
  operation := .update
  table := { name := "t" }
  assignments := [markBelow]

theorem markedByRank_renders (d : Dialect) :
    ∃ r, (Statement.query markedByRank).toSql { dialect := d } = .ok r := by
  -- the sort of the assignments does not compute by itself
  have sorted {α : Type} (a : Field × α) : sortAssignments [a] = [a] := List.mergeSort_singleton _
  simp only [Statement.toSql, RenderOptions.run, Statement.render, markedByRank, markBelow,
    Query.render, renderOperation, renderUpdate, renderSets, renderAssignments, sorted]
  cases d <;> exact ⟨_, rfl⟩

theorem markBelow_within :
    (Part.assignment markBelow).Within (.statement (.query markedByRank)) := by
  have update : (Part.query markedByRank).Within (.statement (.query markedByRank)) :=
    .single List.mem_cons_self
  exact .head (by simp [Part.parts, Query.parts, markedByRank]) update

theorem rankOfRows_inside :
    (Part.expr (.window rankOfRows)).Inside (.assignment markBelow) := by
  have compared : (Part.expr (.window rankOfRows)).Inside (.condition belowLowest) :=
    .single ⟨List.mem_cons_self, by simp⟩
  have branch : (Part.expr (.window rankOfRows)).Inside
      (.whenClause ⟨belowLowest, lowestRank⟩) :=
    compared.tail ⟨List.mem_cons_self, by simp⟩
  have choice : (Part.expr (.window rankOfRows)).Inside
      (.expr (.case ⟨[⟨belowLowest, lowestRank⟩], none⟩)) :=
    branch.tail ⟨List.mem_cons_self, by simp⟩
  exact choice.tail ⟨List.mem_cons_of_mem _ List.mem_cons_self, by simp⟩

theorem markedByRank_compared :
    (∃ r, (Statement.query markedByRank).toSql {} = .ok r) ∧
      (Part.assignment markBelow).Within (.statement (.query markedByRank)) ∧
      (Part.expr (.window rankOfRows)).isWindow = true ∧
      ∃ w op q, (Part.condition (.expression (.window w) op q)).Inside (.assignment markBelow) ∧
        (Part.expr (.window rankOfRows)).Inside (.expr (.window w)) := by
  obtain ⟨r, sent⟩ := markedByRank_renders .postgres
  exact ⟨⟨r, sent⟩, markBelow_within, rfl,
    (Statement.calls_in_assignments sent markBelow_within (.inr rfl)).mp rankOfRows_inside⟩

/-- Windows do get into assigned values, and every dialect is sent them. -/
theorem markedByRank_in_assignment :
    (∀ d : Dialect, ∃ r, (Statement.query markedByRank).toSql { dialect := d } = .ok r) ∧
      ¬∀ (statement : Statement) (options : RenderOptions) (r : Rendered),
        statement.toSql options = .ok r →
          ∀ a : Assignment, (Part.assignment a).Within (.statement statement) →
            ∀ p : Part, p.isAggregate = true ∨ p.isWindow = true → ¬p.Inside (.assignment a) := by
  refine ⟨markedByRank_renders, fun kept => ?_⟩
  obtain ⟨r, sent⟩ := markedByRank_renders .postgres
  exact kept _ _ r sent markBelow markBelow_within _ (.inr rfl) rankOfRows_inside

end TypedSql
