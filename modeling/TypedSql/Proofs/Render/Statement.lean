import TypedSql.Proofs.Render.Recorded
import TypedSql.Proofs.Sql.Spelling

namespace TypedSql

def furtherOperand (part : CompoundPart × Sql) : Sql :=
  sql (" " ++ part.1.op.display ++ " ") ++ part.2

inductive Statement.Renders (c : Context) : Statement → Sql → Prop where
  | query {q s} (made : TypedSql.Renders c (.query q) s) : Renders c (.query q) s
  | compound {q base} {parts : List (CompoundPart × Sql)} {items : List (OrderBy × Sql)}
      (several : q.parts ≠ []) (operands : checkOperands 0 q.operands = .ok ())
      (first : TypedSql.Renders c (.query q.base) base) (partsListed : q.parts = parts.map Prod.fst)
      (supported : ∀ p ∈ parts, c.dialect.supports (.setOperation p.1.op) = true)
      (more : ∀ p ∈ parts, TypedSql.Renders c (.query p.1.query) p.2)
      (itemsListed : q.orderBy = items.map Prod.fst)
      (order : ∀ o ∈ items, TypedSql.Renders c (.ordered o.1) o.2) :
      Renders c (.compound q)
        (base ++ (parts.map furtherOperand).flatten ++ orderClause (items.map Prod.snd) ++
          sql (c.dialect.pagination q.limit q.offset (!q.orderBy.isEmpty)))

theorem operation_of_checkOperands {index : Nat} {queries : List Query}
    (checked : checkOperands index queries = .ok ()) {q : Query} (member : q ∈ queries) :
    q.operation = .select := by
  induction queries generalizing index with
  | nil => simp at member
  | cons head rest ih =>
    cases fault : head.operandFault? <;> simp only [checkOperands, fault] at checked
    · rcases List.mem_cons.mp member with rfl | member
      · by_contra other
        simp [Query.operandFault?, other] at fault
      · exact ih checked member
    · cases checked

section Derivation
variable {c : Context} {s : Sql}

theorem CompoundPart.render_ok {part : CompoundPart} (success : (part.render c).result = .ok s) :
    ∃ query, (c.dialect.supports (.setOperation part.op) = true ∧
      (part.query.render c).result = .ok query) ∧ s = furtherOperand (part, query) := by
  simp only [CompoundPart.render, Render.bind_ok_iff, Render.lift_eq, Render.result_ofExcept,
    Dialect.require_ok_iff, Render.result_pure, Except.ok.injEq] at success
  obtain ⟨_, supported, query, made, rfl⟩ := success
  exact ⟨query, ⟨supported, made⟩, rfl⟩

theorem CompoundQuery.renders_of_ok {q : CompoundQuery} (success : (q.render c).result = .ok s) :
    Statement.Renders c (.compound q) s := by
  unfold CompoundQuery.render at success
  split at success
  · simp at success
  · rename_i several
    simp only [renderOrder_eq, Render.bind_ok_iff, Render.lift_eq, Render.result_ofExcept,
      Render.result_pure, Except.ok.injEq] at success
    obtain ⟨_, operands, base, first, _, all, _, sorted, rfl⟩ := success
    obtain ⟨parts, partsListed, rfl, each⟩ := Render.exists_pairs_of_each_ok
      (fun part s made => CompoundPart.render_ok made) all
    obtain ⟨items, itemsListed, rfl, eachItem⟩ := renderOrderClause_ok sorted
    exact .compound (by simpa using several) operands (Query.renders_of_ok first) partsListed
      (fun p member => (each p member).1) (fun p member => Query.renders_of_ok (each p member).2)
      itemsListed fun o member => (Part.ordered o.1).derivable c o.2 (eachItem o member)

theorem Statement.renders_of_ok {statement : Statement}
    (success : (statement.render c).result = .ok s) : statement.Renders c s := by
  cases statement with
  | query q => exact .query (Query.renders_of_ok success)
  | compound q => exact CompoundQuery.renders_of_ok success

theorem Statement.Renders.render_eq {statement : Statement} (made : statement.Renders c s) :
    statement.render c = ⟨s.holes, .ok s⟩ := by
  cases made with
  | query made => exact made.render_eq
  | @compound q base parts items several operands first partsListed supported more itemsListed
      order =>
    have further : ∀ p ∈ parts, (CompoundPart.render c ∘ Prod.fst) p =
        ⟨(furtherOperand p).holes, .ok (furtherOperand p)⟩ := by
      intro p member
      have query : p.1.query.render c = ⟨p.2.holes, .ok p.2⟩ := (more p member).render_eq
      simp [CompoundPart.render, Dialect.require, supported p member, query, furtherOperand,
        Render.pure_eq]
    have sorted := renderOrderClause_eq (f := fun o => (Node.ordered o).render c)
      fun o member => (order o member).render_eq
    have base : q.base.render c = ⟨base.holes, .ok base⟩ := first.render_eq
    have some : (parts.map Prod.fst).isEmpty = false := by simpa [partsListed] using several
    rw [← itemsListed] at sorted
    show q.render c = _
    simp only [CompoundQuery.render, some, operands, base, renderOrder_eq, sorted, partsListed,
      List.map_map, Render.all_map_eq further, Bool.false_eq_true, ↓reduceIte, Render.lift_eq,
      Render.ofExcept_ok_bind, Render.mk_ok_bind]
    simp [Render.pure_eq]

theorem Statement.toSql_ok_iff {statement : Statement} {options : RenderOptions} {r : Rendered} :
    statement.toSql options = .ok r ↔ ∃ s, statement.Renders (.top options) s ∧
      s.finish options.dialect options.placeholders (ParamSet.ofList (s.holes.map Hole.name)) = r := by
  constructor
  · intro sent
    obtain ⟨s, success⟩ := RenderOptions.run_ok_iff.mp ⟨r, sent⟩
    have made := Statement.renders_of_ok success
    rw [Statement.toSql, RenderOptions.run_of_recorded made.render_eq] at sent
    exact ⟨s, made, Except.ok.inj sent⟩
  · rintro ⟨s, made, rfl⟩
    exact RenderOptions.run_of_recorded made.render_eq

end Derivation

end TypedSql
