import TypedSql.Proofs.Render.Sent

namespace TypedSql

theorem Statement.mem_of_written {d : Dialect} {statement : Statement} {o : Occurrence}
    (member : o ∈ (statement.written d).occurrences) : o ∈ statement.occurrences := by
  cases statement with
  | compound q => exact member
  | query q =>
    simp only [Statement.written, Statement.occurrences, Query.occurrences_eq, Query.written,
      List.mem_append] at member ⊢
    refine member.imp_right fun conflict => ?_
    cases given : q.onConflict with
    | none => simp [given] at conflict
    | some action =>
      simp only [given, Option.map_some, Option.elim_some, OnConflict.written] at conflict ⊢
      split at conflict
      · simp only [OnConflict.occurrences, List.flatMap_nil, List.nil_append] at conflict
        exact List.mem_append_right _ conflict
      · exact conflict

section Check
variable {catalog : Catalog} {n : String}

/-- What a catalog vouches for when it lets a name pass. -/
def Catalog.Knows (catalog : Catalog) : Occurrence → Prop
  | (.table, n) => catalog.tableExists n = true
  | (.field, n) => catalog.fieldExists n = true
  | (.outputAlias, n) => catalog.aliasRegistered n = true ∨ checkName .outputAlias n = .ok ()
  | (kind, n) => checkName kind n = .ok ()

theorem Catalog.knows_of_check {o : Occurrence} (passed : catalog.check o.1 o.2 = .ok ()) :
    catalog.Knows o := by
  obtain ⟨kind, n⟩ := o
  unfold Catalog.check at passed
  split at passed
  · cases passed
  · cases kind <;> simp only at passed
    case table => split at passed <;> simp_all [Catalog.Knows]
    case field => split at passed <;> simp_all [Catalog.Knows]
    case outputAlias => split at passed <;> simp_all [Catalog.Knows]
    case parameter | jsonKey => exact passed

theorem Catalog.faults_eq_nil_iff {names : List Occurrence} :
    catalog.faults names = [] ↔ ∀ o ∈ names, catalog.check o.1 o.2 = .ok () := by
  rw [Catalog.faults, List.filterMap_eq_nil_iff]
  refine forall_congr' fun o => imp_congr_right fun _ => ?_
  cases catalog.check o.1 o.2 <;> simp

end Check

/-- Validation sees all that is printed. It checks each name of the document, in the order of the
    document, with one fault for each name that is refused. Whatever stands between the quotes of
    a rendering is among these names, under what it stands for in the text; so what validates and
    renders names only what the catalog vouches for. -/
theorem Statement.validation_covers_text (catalog : Catalog) (statement : Statement) :
    ∃ names, (Part.statement statement).Lists names ∧
      catalog.validateStatement statement = names.filterMap (fun o =>
        match catalog.check o.1 o.2 with
        | .ok () => none
        | .error e => some e) ∧
      (catalog.validateStatement statement = [] ↔ ∀ o ∈ names, catalog.check o.1 o.2 = .ok ()) ∧
      ∀ options r, statement.toSql options = .ok r →
        ∃ tokens, options.dialect.lex r.sql.toList = some tokens ∧
          (namesIn [] tokens).map Prod.snd = tokens.filterMap Token.name? ∧
          (∀ o ∈ namesIn [] tokens, o ∈ names) ∧
          (catalog.validateStatement statement = [] →
            ∀ o ∈ namesIn [] tokens, catalog.Knows o) := by
  have passing : catalog.validateStatement statement = [] ↔
      ∀ o ∈ statement.occurrences, catalog.check o.1 o.2 = .ok () := Catalog.faults_eq_nil_iff
  refine ⟨statement.occurrences, Part.lists_occurrences _, rfl, passing,
    fun options r rendered => ?_⟩
  obtain ⟨tokens, read, shown⟩ := Statement.sent_names rendered
  have among : ∀ o ∈ namesIn [] tokens, o ∈ statement.occurrences := fun o member =>
    Statement.mem_of_written ((shown o).mp member).1
  refine ⟨tokens, read, map_namesIn [] tokens, among, fun valid o member => ?_⟩
  exact Catalog.knows_of_check (passing.mp valid o (among o member))

end TypedSql
