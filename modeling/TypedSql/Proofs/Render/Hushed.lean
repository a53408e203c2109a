import TypedSql.Proofs.Render.Weighed

namespace TypedSql

theorem Sql.Hushed.of_bare {spell : Hole → String} {s : Sql} (bare : Bare (s.lexemes spell)) :
    s.Hushed spell 0 0 :=
  (Sql.Weighs.of_bare bare).hushed

theorem Sql.Hushed.placeholder {spell : Hole → String} (marked : SpelledMarked spell) (c : Context)
    (p : Param) : (c.placeholder p).Hushed spell 0 0 :=
  (Sql.Weighs.placeholder marked c p).hushed

theorem Field.hushed {spell : Hole → String} {d : Dialect} {f : Field} {s : Sql}
    (made : f.render d = .ok s) : s.Hushed spell 0 0 :=
  (Field.weighed made).hushed

/-- How little a constituent shows outside of brackets. What a join shows is its own keyword. -/
def Node.Hushed (spell : Hole → String) : Node → Sql → Prop
  | .whenClause _, s => Apart (s.lexemes spell) ∧ s.Hushed spell 0 0
  | .join j, s => s.Clauses spell [] [.join j.kind]
  | .query _, _ => True
  | _, s => s.Hushed spell 0 0

theorem Table.bare_render {spell : Hole → String} (t : Table) : Bare (t.render.lexemes spell) := by
  unfold Table.render
  cases t.alias? with
  | none => exact .single rfl
  | some letter =>
    have inert : ∀ c ∈ letter.display.toList, isInert c = true := by
      simp [letter.toList_display, isInert, letter.isWordRest_letter]
    have full : letter.display.toList ≠ [] := by simp [letter.toList_display]
    have spelled : (" " ++ letter.display).toList.foldr gather [] =
        [.sign ' ', .word letter.display.toList] := by
      rw [String.toList_append, List.foldr_append, foldr_gather_word inert full]
      rfl
    have lexed : (tableWithAlias [.name .table t.name] letter).lexemes spell =
        [.name t.name, .sign ' ', .word letter.display.toList] := by
      rw [tableWithAlias, List.singleton_append, Sql.lexemes_name_cons, Sql.lexemes_sql, spelled]
    rw [lexed, letter.toList_display]
    simp [Bare, Lexeme.isBare]

theorem Table.hushed {spell : Hole → String} (t : Table) : t.render.Hushed spell 0 0 :=
  .of_bare t.bare_render

theorem Sql.Clauses.joined {spell : Hole → String} {s : Sql} {marks : List Mark} (kind : JoinKind)
    (shown : s.Shows spell marks) :
    (sql (" " ++ kind.keyword ++ " JOIN ") ++ s).Clauses spell [] [.join kind] := by
  have begun : opens (.join kind) [.word "JOIN".toList] (" " ++ kind.keyword ++ " JOIN ").toList =
      true := by cases kind <;> decide
  exact .single (by cases kind <;> decide) begun shown (by simp [heading?, Mark.is])

theorem Renders.hushed {c : Context} {n : Node} {s : Sql} {spell : Hole → String}
    (marked : SpelledMarked spell) (made : Renders c n s) : n.Hushed spell s := by
  have weighs := made.weighed marked
  cases n with
  | query q => trivial
  | whenClause w => exact ⟨weighs.1, hush_of_weigh weighs.2⟩
  | join j =>
    cases made with
    | @crossJoin _ kind table formed supported =>
      obtain ⟨marks, shown, -⟩ := Sql.Hushed.exists_shows table.hushed
      exact .joined kind shown
    | @join _ kind table on text formed supported matching =>
      obtain ⟨marks, shown, -⟩ := Sql.Hushed.exists_shows table.hushed
      obtain ⟨marks', shown', -⟩ := Sql.Hushed.exists_shows (matching.weighed marked).hushed
      have on : stays [.word "ON".toList] " ON ".toList = true := by decide
      have whole := Sql.Clauses.joined kind (shown.linked on (by decide) shown')
      rwa [← List.append_assoc, ← List.append_assoc] at whole
  | _ => exact Sql.Weighs.hushed weighs

end TypedSql
