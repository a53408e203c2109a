import TypedSql.Proofs.Render.Renamed
import TypedSql.Proofs.Render.Sent

namespace TypedSql

theorem Token.name_mem_iff {n : String} {tokens : List Token} :
    .name n ∈ tokens ↔ ∃ kind, (kind, n) ∈ namesIn [] tokens := by
  have listed : .name n ∈ tokens ↔ n ∈ tokens.filterMap Token.name? := by
    rw [List.mem_filterMap]
    constructor
    · exact fun member => ⟨_, member, rfl⟩
    · rintro ⟨token, member, named⟩
      cases token <;> simp_all [Token.name?]
  rw [listed, ← map_namesIn []]
  simp

section Sent
variable {statement : Statement} {options : RenderOptions} {r : Rendered}

theorem Statement.sent_plainText (rendered : statement.toSql options = .ok r) :
    ∃ tokens, options.dialect.lex r.sql.toList = some tokens ∧
      calm (plainText tokens) = true ∧ nest (plainText tokens) 0 = some 0 := by
  obtain ⟨s, made, read, -⟩ := Statement.sent_tokens rendered
  obtain ⟨e, -, walked⟩ := made.walk
  exact ⟨_, read, plainText_of_walk (statement.spelling_inert options) walked⟩

theorem Statement.sent_renamed (rendered : statement.toSql options = .ok r) {ρ : Renaming}
    (keeps : ρ.KeepsOrder statement.occurrences) :
    ∃ r' tokens tokens', (statement.rename ρ).toSql options = .ok r' ∧
      options.dialect.lex r.sql.toList = some tokens ∧
      options.dialect.lex r'.sql.toList = some tokens' ∧
      tokens'.map Token.hide = tokens.map Token.hide ∧
      namesIn [] tokens' = (namesIn [] tokens).map (fun o => (o.1, ρ.apply o.1 o.2)) ∧
      r'.params = r.params := by
  obtain ⟨s, made, rfl⟩ := Statement.toSql_ok_iff.mp rendered
  have renamed := made.rename keeps
  have inert := spellHole_inert options.dialect options.placeholders
    (ParamSet.ofList (s.holes.map Hole.name))
  obtain ⟨read, names⟩ := made.read options.dialect inert
  obtain ⟨read', names'⟩ := renamed.read options.dialect inert
  have sent := Statement.toSql_ok_iff.mpr ⟨s.rename ρ, renamed, rfl⟩
  rw [Sql.holes_rename] at sent
  refine ⟨_, _, _, sent, read, read', s.hide_tokens_rename ρ, ?_, rfl⟩
  rw [names, names', Sql.names_rename]

/-- No name can change the structure of the text. Read by the rules of the dialect, nothing is
    left open; the names between quotes are the names of the document, as far as it is written;
    the text around them is balanced and neither ends the statement nor opens a comment; and
    under other names, if its columns keep their order, it is the same, token for token. -/
theorem Statement.names_keep_structure (rendered : statement.toSql options = .ok r) :
    ∃ tokens names, options.dialect.lex r.sql.toList = some tokens ∧
      (Part.statement (statement.written options.dialect)).Lists names ∧
      (∀ n, .name n ∈ tokens ↔ ∃ kind, kind ≠ .jsonKey ∧ (kind, n) ∈ names) ∧
      nest (plainText tokens) 0 = some 0 ∧
      occurs [';'] (plainText tokens) = false ∧ occurs ['-', '-'] (plainText tokens) = false ∧
      occurs ['/', '*'] (plainText tokens) = false ∧
      ∀ ρ : Renaming, ρ.KeepsOrder statement.occurrences →
        ∃ r' tokens', (statement.rename ρ).toSql options = .ok r' ∧
          options.dialect.lex r'.sql.toList = some tokens' ∧
          tokens'.map Token.hide = tokens.map Token.hide ∧
          namesIn [] tokens' = (namesIn [] tokens).map (fun o => (o.1, ρ.apply o.1 o.2)) ∧
          r'.params = r.params := by
  obtain ⟨tokens, read, shown⟩ := Statement.sent_names rendered
  obtain ⟨_, again, quiet, balanced⟩ := Statement.sent_plainText rendered
  obtain rfl := Option.some.inj (read.symm.trans again)
  obtain ⟨terminator, comment, block⟩ := occurs_of_calm quiet
  refine ⟨tokens, _, read, Part.lists_occurrences _, fun n => ?_, balanced, terminator, comment,
    block, fun ρ keeps => ?_⟩
  · rw [Token.name_mem_iff]
    exact exists_congr fun kind => (shown (kind, n)).trans and_comm
  · obtain ⟨r', _, tokens', sent, again, read', hidden, names, params⟩ :=
      Statement.sent_renamed rendered keeps
    obtain rfl := Option.some.inj (read.symm.trans again)
    exact ⟨r', tokens', sent, read', hidden, names, params⟩

end Sent

def hostileNames : Statement :=
  .query
    { operation := .select, table := { name := "a]; DROP TABLE b --" }
      fields := [⟨.field { name := "x\x22", qualifier := some (.table "it\x27s") }, some ⟨"]]"⟩⟩] }

def hostileNamesSent : Rendered where
  sql := "SELECT [it\x27s].[x\x22] AS []]]]] FROM [a]]; DROP TABLE b --]"
  params := []

def harmlessNames : Renaming where
  table _ := "users"
  column _ := "id"
  output _ := "key"

theorem hostileNames_structure :
    hostileNames.toSql { dialect := .sqlServer } = .ok hostileNamesSent ∧
      ∃ tokens, Dialect.sqlServer.lex hostileNamesSent.sql.toList = some tokens ∧
        nest (plainText tokens) 0 = some 0 ∧ occurs [';'] (plainText tokens) = false ∧
        ∃ r' tokens', (hostileNames.rename harmlessNames).toSql { dialect := .sqlServer } = .ok r' ∧
          Dialect.sqlServer.lex r'.sql.toList = some tokens' ∧
          tokens'.map Token.hide = tokens.map Token.hide := by
  have rendered : hostileNames.toSql { dialect := .sqlServer } = .ok hostileNamesSent := rfl
  -- there is only one column
  have keeps : harmlessNames.KeepsOrder hostileNames.occurrences := by
    have columns {n : String} (member : (.field, n) ∈ hostileNames.occurrences) : n = "x\x22" := by
      simpa [hostileNames, Statement.occurrences, Query.occurrences_eq, FieldExpr.occurrences,
        Expr.occurrences, Field.occurrences, Table.occurrences, Alias.occurrences,
        Qualifier.occurrences] using member
    intro a b first second before
    rw [columns first, columns second] at before
    exact absurd before (String.lt_irrefl _)
  obtain ⟨tokens, names, read, -, -, balanced, terminator, -, -, renamed⟩ :=
    Statement.names_keep_structure rendered
  obtain ⟨r', tokens', sent, read', hidden, -⟩ := renamed harmlessNames keeps
  exact ⟨rendered, tokens, read, balanced, terminator, r', tokens', sent, read', hidden⟩

end TypedSql
