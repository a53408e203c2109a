import TypedSql.Proofs.Placeholders
import TypedSql.Proofs.Precedence
import TypedSql.Proofs.Render.Added

namespace TypedSql

namespace Truth

theorem and_assoc (a b c : Truth) : (a.and b).and c = a.and (b.and c) := by
  cases a <;> cases b <;> cases c <;> rfl

theorem fold_and_append (vs ws : List Truth) :
    Connective.fold .and (vs ++ ws) = (Connective.fold .and vs).and (Connective.fold .and ws) := by
  induction vs with
  | nil => rfl
  | cons v vs ih =>
    show v.and (Connective.fold .and (vs ++ ws)) = (v.and (Connective.fold .and vs)).and _
    rw [ih, and_assoc]

end Truth

namespace Condition

def conjuncts : Condition → List Condition
  | .group .and items => items
  | x => [x]

section Accumulated
variable {x : Condition} {rest : List Condition} {truth : Condition → Truth}

theorem andAlso_eq (x y : Condition) : x.andAlso y = allOf (x.conjuncts ++ [y]) := by
  cases x with
  | group op items => cases op <;> rfl
  | _ => rfl

theorem foldl_andAlso (some : rest ≠ []) :
    rest.foldl andAlso x = allOf (x.conjuncts ++ rest) := by
  induction rest generalizing x with
  | nil => exact absurd rfl some
  | cons y rest ih =>
    rw [List.foldl_cons]
    cases rest with
    | nil => exact andAlso_eq x y
    | cons z rest =>
      rw [ih (List.cons_ne_nil z rest), andAlso_eq]
      simp [allOf, conjuncts]

theorem value_conjuncts (x : Condition) :
    Connective.fold .and (x.conjuncts.map (value truth)) = x.value truth := by
  cases x with
  | group op items =>
    cases op with
    | and => exact (value_group .and items).symm
    | or => exact Connective.fold_single _ _
  | _ => exact Connective.fold_single _ _

theorem value_foldl_andAlso :
    (rest.foldl andAlso x).value truth = Connective.fold .and ((x :: rest).map (value truth)) := by
  cases rest with
  | nil => exact (Connective.fold_single .and _).symm
  | cons y rest =>
    rw [foldl_andAlso (List.cons_ne_nil y rest), allOf, value_group, List.map_append,
      Truth.fold_and_append, value_conjuncts]
    rfl

end Accumulated

def Renderable (c : Context) (scope : Scope) (x : Condition) : Prop :=
  ∃ s, (x.render c scope false).result = .ok s

section Rendering
variable {c : Context} {scope : Scope} {x : Condition} {items rest : List Condition}

theorem renderable_iff_nested : ∀ (x : Condition) (nested : Bool),
    (∃ s, (x.render c scope nested).result = .ok s) ↔ x.Renderable c scope
  | .group op [], nested => by simp [Renderable, Condition.render]
  | .group op [only], nested => by
    have inner := renderable_iff_nested only nested
    simpa only [Renderable, Condition.render] using inner
  | .group op (first :: second :: rest), nested => by
    simp only [Renderable, Condition.render, renderGroup, Render.bind_ok_iff, Render.result_pure,
      Except.ok.injEq]
    constructor <;> rintro ⟨_, parts, made, -⟩ <;> exact ⟨_, parts, made, rfl⟩
  | .simple .., _ | .fieldComparison .., _ | .subquery .., _ | .between .., _ | .aggregate .., _
  | .expression .., _ => Iff.rfl

theorem renderable_group (op : Connective) :
    (Condition.group op items).Renderable c scope ↔
      items ≠ [] ∧ ∀ y ∈ items, y.Renderable c scope := by
  obtain _ | ⟨first, _ | ⟨second, rest⟩⟩ := items
  · simp [Renderable, Condition.render]
  · simp [Renderable, Condition.render]
  · have each : (∀ y ∈ first :: second :: rest, y.Renderable c scope) ↔
        ∀ y ∈ first :: second :: rest, ∃ s, ((Node.condition scope true y).render c).result = .ok s :=
      forall₂_congr fun y _ => (renderable_iff_nested y true).symm
    rw [each]
    simp only [Renderable, Condition.render, renderGroup, renderItems_eq, Render.bind_ok_iff,
      Render.result_pure, Except.ok.injEq]
    constructor
    · rintro ⟨_, parts, made, -⟩
      exact ⟨List.cons_ne_nil _ _, fun y member =>
        Render.each_of_all_ok made (List.mem_map_of_mem member)⟩
    · rintro ⟨-, each⟩
      obtain ⟨pairs, listed, made⟩ := exists_pairs_of_each each
      have all : (Render.all ((first :: second :: rest).map fun y =>
          (Node.condition scope true y).render c)).result = .ok (pairs.map Prod.snd) := by
        rw [listed, Render.all_ok_iff, List.map_map, List.forall₂_map_left_iff,
          List.forall₂_map_right_iff, List.forall₂_same]
        exact made
      exact ⟨_, _, all, rfl⟩

/-- What is accumulated renders if each condition does. An empty conjunction at the start is
    filled by what follows. -/
theorem renderable_foldl_andAlso :
    (rest.foldl andAlso x).Renderable c scope ↔
      (x.Renderable c scope ∨ x = allOf [] ∧ rest ≠ []) ∧ ∀ y ∈ rest, y.Renderable c scope := by
  by_cases some : rest = []
  · simp [some]
  · have joined : (∀ y ∈ x.conjuncts, y.Renderable c scope) ↔
        x.Renderable c scope ∨ x = allOf [] := by
      cases x with
      | group op items =>
        cases op with
        | or => simp [conjuncts, allOf]
        | and =>
          rw [renderable_group]
          by_cases empty : items = [] <;> simp [conjuncts, allOf, empty]
      | _ => simp [conjuncts, allOf]
    rw [foldl_andAlso some, allOf, renderable_group, List.forall_mem_append, joined]
    simp [some, allOf]

end Rendering
end Condition

namespace ConditionClause
variable {clause : ConditionClause} {q : Query} {options : RenderOptions} {x : Condition}
  {rest : List Condition}

def addAll (clause : ConditionClause) (q : Query) (xs : List Condition) : Query :=
  xs.foldl clause.add q

theorem add_of_absent (absent : clause.of q = none) (x : Condition) :
    clause.add q x = clause.put q x := by
  cases clause with
  | filter =>
    have none : q.filter = .none := absent
    simp [add, put, Query.addFilter, Query.conjoin, none]
  | having =>
    have none : q.having = .none := absent
    simp [add, put, Query.addHaving, Query.conjoin, none]

theorem add_put (x y : Condition) : clause.add (clause.put q x) y = clause.put q (x.andAlso y) := by
  cases clause <;> rfl

theorem addAll_eq (absent : clause.of q = none) :
    clause.addAll q (x :: rest) = clause.put q (rest.foldl Condition.andAlso x) := by
  have further (y : Condition) (ys : List Condition) :
      ys.foldl clause.add (clause.put q y) = clause.put q (ys.foldl Condition.andAlso y) := by
    induction ys generalizing y with
    | nil => rfl
    | cons z ys ih => rw [List.foldl_cons, List.foldl_cons, add_put, ih]
  rw [addAll, List.foldl_cons, add_of_absent absent, further]

theorem renderable_put_iff (admits : clause.Admits q) (absent : clause.of q = none) {r₀ : Rendered}
    (sound : q.toSql options = .ok r₀) :
    (∃ r, (clause.put q x).toSql options = .ok r) ↔ x.Renderable (.top options) clause.scope := by
  have sent : (Statement.query q).toSql options = .ok r₀ := sound
  obtain ⟨s₀, ⟨base⟩, -⟩ := Statement.sent sent
  constructor
  · rintro ⟨r, rendered⟩
    have sent' : (Statement.query (clause.put q x)).toSql options = .ok r := rendered
    obtain ⟨s, ⟨made⟩, -⟩ := Statement.sent sent'
    obtain ⟨t, condition⟩ := renders_of_put admits made
    have same : x.render (.top options) clause.scope false = ⟨t.holes, .ok t⟩ := condition.render_eq
    exact ⟨t, by rw [same]⟩
  · rintro ⟨t, made⟩
    obtain ⟨front, back, -, placed⟩ := ConditionClause.placed admits absent base
    have whole := placed x t ((Part.condition x).derivable _ _ _ _ made)
    have result : ((clause.put q x).render (.top options)).result = .ok _ :=
      congrArg Render.result whole.render_eq
    exact RenderOptions.run_ok_iff.mpr ⟨_, result⟩

end ConditionClause

/-- Conditions that are added one after the other are one conjunction. A query that renders
    without them renders with them exactly if it does with each of them alone, where a first one
    that is an empty conjunction may have no text of its own if others follow. The clause is put
    in one place of the text, and what it says, read with AND tighter than OR, has the value of
    all the conditions joined by AND. -/
theorem ConditionClause.accumulates (clause : ConditionClause) (q : Query) (options : RenderOptions)
    (admits : clause.Admits q) (absent : clause.of q = none) (r₀ : Rendered)
    (sound : q.toSql options = .ok r₀) (first : Condition) (rest : List Condition) :
    ((∃ r, (clause.addAll q (first :: rest)).toSql options = .ok r) ↔
      ((∃ r, (clause.add q first).toSql options = .ok r) ∨ first = .allOf [] ∧ rest ≠ []) ∧
        ∀ x ∈ rest, ∃ r, (clause.add q x).toSql options = .ok r) ∧
    ∀ r, (clause.addAll q (first :: rest)).toSql options = .ok r →
      let spell := (Statement.query (clause.addAll q (first :: rest))).spelling options
      ∃ front back text tokens φ, (q.render (.top options)).result = .ok (front ++ back) ∧
        r.sql = front.write options.dialect spell ++ " " ++ clause.keyword ++ " " ++ text ++
          back.write options.dialect spell ∧
        options.dialect.lex text.toList = some tokens ∧
        parse options.dialect (lexemes tokens) = some φ ∧
        ∀ truth : String → Truth, φ.value truth = Connective.fold .and ((first :: rest).map
          (Condition.value fun leaf => truth (leaf.text (.top options) clause.scope spell))) := by
  constructor
  · simp only [addAll_eq absent, add_of_absent absent, renderable_put_iff admits absent sound,
      Condition.renderable_foldl_andAlso]
  · intro r rendered spell
    have sent : (Statement.query q).toSql options = .ok r₀ := sound
    have sent' : (Statement.query (clause.addAll q (first :: rest))).toSql options = .ok r :=
      rendered
    obtain ⟨s₀, ⟨base⟩, -⟩ := Statement.sent sent
    obtain ⟨s, ⟨made⟩, written, -⟩ := Statement.sent sent'
    change r.sql = s.write options.dialect spell at written
    obtain ⟨front, back, rfl, placed⟩ := ConditionClause.placed admits absent base
    rw [addAll_eq absent] at made
    obtain ⟨t, condition⟩ := renders_of_put admits made
    have whole := placed _ t condition
    have same : s = front ++ sql (" " ++ clause.keyword ++ " ") ++ t ++ back :=
      Except.ok.inj (congrArg Render.result (made.render_eq.symm.trans whole.render_eq))
    have marked : SpelledMarked spell := spellHole_marked _ _ _
    obtain ⟨φ, valued, parsed⟩ := Condition.reads marked condition
    have phrase : Phrase t := condition.laid
    obtain ⟨e, -, walked⟩ := phrase (.before .field) 0 rfl
    refine ⟨front, back, t.write options.dialect spell, t.tokens spell, φ, ?_, ?_, ?_, parsed, ?_⟩
    · exact congrArg Render.result base.render_eq
    · rw [written, same]
      apply String.toList_injective
      simp only [Sql.toList_write_append, Sql.toList_write_sql, String.toList_append,
        List.append_assoc]
    · exact lex_write marked.1 walked
    · intro truth
      rw [valued, Condition.value_foldl_andAlso]

def everyUser : Query := { operation := .select, table := { name := "users" } }

def namedOrAged : Condition :=
  .anyOf [.isNotNull { name := "name" }, .isNotNull { name := "age" }]

def namedOrAgedSent : Rendered where
  sql := "SELECT * FROM \x22users\x22 WHERE (\x22name\x22 IS NOT NULL OR \x22age\x22 IS NOT NULL) " ++
    "AND \x22id\x22 IS NULL"
  params := []

theorem everyUser_accumulates :
    (ConditionClause.filter.addAll everyUser
        [namedOrAged, .isNull { name := "id" }]).toSql {} = .ok namedOrAgedSent ∧
      (∃ r, (ConditionClause.filter.add everyUser namedOrAged).toSql {} = .ok r) ∧
      ∃ text tokens φ, Dialect.postgres.lex text = some tokens ∧
        parse .postgres (lexemes tokens) = some φ ∧
        ∀ truth : String → Truth, φ.value truth = Connective.fold .and
          [Connective.fold .or [truth "\x22name\x22 IS NOT NULL", truth "\x22age\x22 IS NOT NULL"],
            truth "\x22id\x22 IS NULL"] := by
  have sound : everyUser.toSql {} = .ok ⟨"SELECT * FROM \x22users\x22", []⟩ := rfl
  have rendered : (ConditionClause.filter.addAll everyUser
      [namedOrAged, .isNull { name := "id" }]).toSql {} = .ok namedOrAgedSent := rfl
  have admits : ConditionClause.filter.Admits everyUser := by
    show Operation.select ≠ Operation.insert
    decide
  obtain ⟨each, read⟩ := ConditionClause.accumulates .filter everyUser {} admits rfl _ sound
    namedOrAged [.isNull { name := "id" }]
  obtain ⟨alone | ⟨other, -⟩, -⟩ := each.mp ⟨_, rendered⟩
  · obtain ⟨front, back, text, tokens, φ, -, -, lexed, parsed, valued⟩ := read _ rendered
    exact ⟨rendered, alone, text.toList, tokens, φ, lexed, parsed, fun truth => valued truth⟩
  · cases other

/-- An empty conjunction has no text of its own, but vanishes in front of a further condition. -/
theorem everyUser_emptyFirst :
    everyUser.toSql {} = .ok ⟨"SELECT * FROM \x22users\x22", []⟩ ∧
      ¬((∃ r, (ConditionClause.filter.addAll everyUser
          [.allOf [], .isNull { name := "id" }]).toSql {} = .ok r) ↔
        ∀ x ∈ [Condition.allOf [], .isNull { name := "id" }],
          ∃ r, (ConditionClause.filter.add everyUser x).toSql {} = .ok r) := by
  have both : (ConditionClause.filter.addAll everyUser
      [.allOf [], .isNull { name := "id" }]).toSql {} =
        .ok ⟨"SELECT * FROM \x22users\x22 WHERE \x22id\x22 IS NULL", []⟩ := rfl
  have alone : (ConditionClause.filter.add everyUser (.allOf [])).toSql {} =
      .error .emptyConditionGroup := rfl
  refine ⟨rfl, fun same => ?_⟩
  obtain ⟨r, rendered⟩ := same.mp ⟨_, both⟩ (.allOf []) List.mem_cons_self
  rw [alone] at rendered
  cases rendered

end TypedSql
