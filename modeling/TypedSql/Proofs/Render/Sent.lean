import TypedSql.Proofs.Render.Laid
import TypedSql.Proofs.Render.Names
import TypedSql.Proofs.Render.Uses
import TypedSql.Proofs.Sql.Placeholder

namespace TypedSql

def Statement.paramSet (statement : Statement) : ParamSet :=
  ParamSet.ofList (statement.uses.map Hole.name)

def Statement.spelling (statement : Statement) (options : RenderOptions) : Hole → String :=
  spellHole options.dialect options.placeholders statement.paramSet

theorem Statement.spelling_inert (statement : Statement) (options : RenderOptions) :
    SpelledInert (statement.spelling options) := spellHole_inert _ _ _

section Read
variable {c : Context} {statement : Statement} {s : Sql}

theorem Statement.Renders.walk (made : statement.Renders c s) :
    ∃ e, e ≠ Edge.qualifier ∧ s.walk (.start, 0) = some (e, 0) := made.runs .start 0 rfl

theorem Statement.Renders.read (made : statement.Renders c s) (d : Dialect) {spell : Hole → String}
    (inert : SpelledInert spell) :
    d.lex (s.write d spell).toList = some (s.tokens spell) ∧
      namesIn [] (s.tokens spell) = s.names := by
  obtain ⟨e, ends, walked⟩ := made.walk
  have stands : Edge.start.Stands [] := ⟨fun _ => rfl, by simp⟩
  exact ⟨lex_write inert walked, namesIn_of_walk walked ends stands⟩

end Read

section Sent
variable {statement : Statement} {options : RenderOptions} {r : Rendered}

/-- What is sent is what a derivation writes, with the parameters of the statement. -/
theorem Statement.sent (rendered : statement.toSql options = .ok r) :
    ∃ s, statement.Renders (.top options) s ∧
      r.sql = s.write options.dialect (statement.spelling options) ∧
      r.params = statement.paramSet.names := by
  obtain ⟨s, made, rfl⟩ := Statement.toSql_ok_iff.mp rendered
  have holes : s.holes = statement.uses := made.holes_eq rfl
  rw [holes]
  exact ⟨s, made, rfl, rfl⟩

theorem Statement.sent_tokens (rendered : statement.toSql options = .ok r) :
    ∃ s, statement.Renders (.top options) s ∧
      options.dialect.lex r.sql.toList = some (s.tokens (statement.spelling options)) ∧
      namesIn [] (s.tokens (statement.spelling options)) = s.names := by
  obtain ⟨s, made, written, -⟩ := Statement.sent rendered
  rw [written]
  exact ⟨s, made, made.read options.dialect (statement.spelling_inert options)⟩

theorem Statement.sent_params (rendered : statement.toSql options = .ok r) :
    r.params = statement.paramSet.names := by
  obtain ⟨_, _, _, listed⟩ := Statement.sent rendered
  exact listed

theorem Statement.sent_names (rendered : statement.toSql options = .ok r) :
    ∃ tokens, options.dialect.lex r.sql.toList = some tokens ∧
      ∀ o, o ∈ namesIn [] tokens ↔ Shown (statement.written options.dialect).occurrences o := by
  obtain ⟨s, made, read, names⟩ := Statement.sent_tokens rendered
  refine ⟨_, read, fun o => ?_⟩
  rw [names]
  exact made.mem_names o

end Sent

end TypedSql
