import TypedSql.Proofs.Render.Statement
import TypedSql.Tree.Build

namespace TypedSql

inductive ConditionClause where
  | filter | having
  deriving DecidableEq

namespace ConditionClause

def of : ConditionClause → Query → Option Condition
  | .filter, q => q.filter
  | .having, q => q.having

def put : ConditionClause → Query → Condition → Query
  | .filter, q, x => { q with filter := some x }
  | .having, q, x => { q with having := some x }

def add : ConditionClause → Query → Condition → Query
  | .filter => Query.addFilter
  | .having => Query.addHaving

def scope : ConditionClause → Scope
  | .filter => .whereClause
  | .having => .having

def keyword : ConditionClause → String
  | .filter => "WHERE"
  | .having => "HAVING"

def Admits : ConditionClause → Query → Prop
  | .filter, q => q.operation ≠ .insert
  | .having, q => q.operation = .select ∧ q.groupBy ≠ []

end ConditionClause

theorem Query.checkClauses_ok_iff {q : Query} :
    q.checkClauses = .ok () ↔
      ∀ clause : Clause, clause.isPresent q = true → clause ∈ q.operation.clauses := by
  constructor
  · intro clauses clause present
    by_contra outside
    rw [q.isPresent_eq_false clauses clause outside] at present
    cases present
  · intro each
    unfold Query.checkClauses
    split
    · rename_i refused found
      have fault := List.find?_some found
      simp only [Bool.and_eq_true, Bool.not_eq_true', List.contains_eq_mem,
        decide_eq_false_iff_not] at fault
      exact absurd (each refused fault.2) fault.1
    · rfl

section Added
variable {clause : ConditionClause} {q : Query} {c : Context} {x : Condition} {s t : Sql}

theorem ConditionClause.checkClauses_put (admits : clause.Admits q)
    (clauses : q.checkClauses = .ok ()) : (clause.put q x).checkClauses = .ok () := by
  rw [Query.checkClauses_ok_iff] at clauses ⊢
  intro other present
  cases clause with
  | filter =>
    by_cases same : other = .filter
    · subst same
      show Clause.filter ∈ q.operation.clauses
      have writes : q.operation ≠ .insert := admits
      cases operation : q.operation
      case insert => exact absurd operation writes
      all_goals decide
    · apply clauses other
      cases other <;> first | exact absurd rfl same | exact present
  | having =>
    by_cases same : other = .having
    · subst same
      show Clause.having ∈ q.operation.clauses
      rw [admits.1]
      decide
    · apply clauses other
      cases other <;> first | exact absurd rfl same | exact present

/-- That a clause is put in one place of a text as soon as its condition renders. -/
def ConditionClause.Placed (clause : ConditionClause) (c : Context) (q : Query) (s : Sql) : Prop :=
  ∃ front back, s = front ++ back ∧ ∀ x t, Renders c (.condition clause.scope false x) t →
    Renders c (.query (clause.put q x)) (front ++ sql (" " ++ clause.keyword ++ " ") ++ t ++ back)

theorem ConditionClause.placed_filter (admits : q.operation ≠ .insert) (absent : q.filter = none)
    (base : Renders c (.query q) s) : ConditionClause.Placed .filter c q s := by
  have clauses (x : Condition) (checked : q.checkClauses = .ok ()) :
      (ConditionClause.filter.put q x).checkClauses = .ok () := checkClauses_put admits checked
  have given (x : Condition) (t : Sql) :
      { q with filter := some x }.filter = (some (x, t)).map Prod.fst := rfl
  have single {x : Condition} {t : Sql}
      (made : Renders c (.condition .whereClause false x) t) :
      ∀ p ∈ some (x, t), Renders c (.condition .whereClause false p.1) p.2 := by
    rintro _ ⟨⟩
    exact made
  cases base with
  | insert operation => exact absurd operation admits
  | @select _ _ distinct lock groupBy fields joins filter having items operation checked rules
      distinctly fieldsListed projects locks joinsListed joined filterGiven _ groups havingGiven
      havings itemsListed order =>
    obtain rfl : filter = none := Option.map_eq_none_iff.mp (filterGiven.symm.trans absent)
    refine ⟨sql "SELECT " ++ distinct ++ projection (fields.map Prod.snd) ++ sql " FROM " ++
      q.table.render ++ lock.1 ++ (joins.map Prod.snd).flatten,
      groupBy ++ conditional "HAVING" (having.map Prod.snd) ++ orderClause (items.map Prod.snd) ++
      sql (c.dialect.pagination q.limit q.offset (!q.orderBy.isEmpty)) ++ lock.2, ?_, ?_⟩
    · simp [Query.selectText, conditional]
    · intro x t made
      have whole := Renders.select (q := { q with filter := some x }) operation (clauses x checked)
        rules distinctly fieldsListed projects locks joinsListed joined (given x t)
        (single made) groups havingGiven havings itemsListed order
      simpa [Query.selectText, conditional, put, keyword] using whole
  | @count _ _ joins filter operation checked joinsListed joined filterGiven =>
    obtain rfl : filter = none := Option.map_eq_none_iff.mp (filterGiven.symm.trans absent)
    refine ⟨sql "SELECT COUNT(*) FROM " ++ q.table.render ++ (joins.map Prod.snd).flatten, [], ?_, ?_⟩
    · simp [Query.countText, conditional]
    · intro x t made
      have whole := Renders.count (q := { q with filter := some x }) operation (clauses x checked)
        joinsListed joined (given x t) (single made)
      simpa [Query.countText, conditional, put, keyword] using whole
  | @update _ _ output returning sets filter operation checked assigned setsListed values plain
      unrepeated outputs filterGiven _ returns =>
    obtain rfl : filter = none := Option.map_eq_none_iff.mp (filterGiven.symm.trans absent)
    refine ⟨sql "UPDATE " ++ q.table.render ++ sql " SET " ++ Sql.commaList
      ((sortAssignments (sets.map fun a => (a.1.field, a.2))).map assignmentSql) ++ output,
      returning, ?_, ?_⟩
    · simp [Query.updateText, conditional]
    · intro x t made
      have whole := Renders.update (q := { q with filter := some x }) operation (clauses x checked)
        assigned setsListed values plain unrepeated outputs (given x t) (single made)
        returns
      simpa [Query.updateText, conditional, put, keyword] using whole
  | @delete _ _ output returning filter operation checked outputs filterGiven _ returns =>
    obtain rfl : filter = none := Option.map_eq_none_iff.mp (filterGiven.symm.trans absent)
    refine ⟨sql "DELETE FROM " ++ q.table.render ++ output, returning, ?_, ?_⟩
    · simp [Query.deleteText, conditional]
    · intro x t made
      have whole := Renders.delete (q := { q with filter := some x }) operation (clauses x checked)
        outputs (given x t) (single made) returns
      simpa [Query.deleteText, conditional, put, keyword] using whole

theorem ConditionClause.placed_having (operation : q.operation = .select) (grouped : q.groupBy ≠ [])
    (absent : q.having = none) (base : Renders c (.query q) s) :
    ConditionClause.Placed .having c q s := by
  cases base with
  | count other | insert other | update other | delete other =>
    rw [operation] at other
    cases other
  | @select _ _ distinct lock groupBy fields joins filter having items _ checked rules distinctly
      fieldsListed projects locks joinsListed joined filterGiven filters groups havingGiven _
      itemsListed order =>
    obtain rfl : having = none := Option.map_eq_none_iff.mp (havingGiven.symm.trans absent)
    refine ⟨sql "SELECT " ++ distinct ++ projection (fields.map Prod.snd) ++ sql " FROM " ++
      q.table.render ++ lock.1 ++ (joins.map Prod.snd).flatten ++
      conditional "WHERE" (filter.map Prod.snd) ++ groupBy, orderClause (items.map Prod.snd) ++
      sql (c.dialect.pagination q.limit q.offset (!q.orderBy.isEmpty)) ++ lock.2, ?_, ?_⟩
    · simp [Query.selectText, conditional]
    · intro x t made
      have admits : ConditionClause.having.Admits q := ⟨operation, grouped⟩
      have checked' : (ConditionClause.having.put q x).checkClauses = .ok () :=
        checkClauses_put admits checked
      have given : { q with having := some x }.having = (some (x, t)).map Prod.fst := rfl
      have rules' : { q with having := some x }.checkSelect = .ok () := by
        have full : q.groupBy.isEmpty = false := by simpa using grouped
        simpa [Query.checkSelect, full, absent] using rules
      have whole := Renders.select (q := { q with having := some x }) operation checked' rules'
        distinctly fieldsListed projects locks joinsListed joined filterGiven filters groups
        given (by rintro _ ⟨⟩; exact made) itemsListed order
      simpa [Query.selectText, conditional, put, keyword] using whole

/-- A query that renders without a clause renders with it as soon as the condition does, and the
    clause is put in one place of its text. -/
theorem ConditionClause.placed (admits : clause.Admits q) (absent : clause.of q = none)
    (base : Renders c (.query q) s) : clause.Placed c q s := by
  cases clause with
  | filter => exact placed_filter admits absent base
  | having => exact placed_having admits.1 admits.2 absent base

theorem ConditionClause.renders_of_put (admits : clause.Admits q)
    (made : Renders c (.query (clause.put q x)) s) :
    ∃ t, Renders c (.condition clause.scope false x) t := by
  have present {scope : Scope} {given : Option (Condition × Sql)}
      (found : some x = given.map Prod.fst)
      (each : ∀ p ∈ given, Renders c (.condition scope false p.1) p.2) :
      ∃ t, Renders c (.condition scope false x) t := by
    obtain ⟨⟨_, t⟩, rfl, rfl⟩ := Option.map_eq_some_iff.mp found.symm
    exact ⟨t, each _ rfl⟩
  cases clause with
  | filter =>
    cases made with
    | select _ _ _ _ _ _ _ _ _ given filters => exact present given filters
    | count _ _ _ _ given filters => exact present given filters
    | insert operation => exact absurd operation admits
    | update _ _ _ _ _ _ _ _ given filters => exact present given filters
    | delete _ _ _ given filters => exact present given filters
  | having =>
    cases made with
    | select _ _ _ _ _ _ _ _ _ _ _ _ given havings => exact present given havings
    | count other | insert other | update other | delete other =>
      have operation : q.operation = .select := admits.1
      exact absurd (operation.symm.trans other) (by decide)

end Added
end TypedSql
