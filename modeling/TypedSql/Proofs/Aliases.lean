import TypedSql.Proofs.Document.Plain
import TypedSql.Proofs.RoundTrip
import TypedSql.Proofs.Validation
import TypedSql.Registry
import TypedSql.Tree.Build

namespace TypedSql

open Json (Reading)

/-- That a document is refused, as it stands and as a text in either layout. -/
structure Decoder.Refuses {α : Type} (decode : Decoder α) (j : Json) : Prop where
  document : ∃ e, decode (.ofJson j) = .error e
  compact : ∃ e, decode.fromText j.compact = .error e
  pretty : ∃ e, decode.fromText j.pretty = .error e

section Refuses
variable {α : Type} {decode : Decoder α} {j : Json} {e : DecodeError}

theorem Decoder.fromText_of_refused {text : String}
    (read : Json.Text.read documentDepth text = ⟨.ofJson documentDepth j, true⟩)
    (refused : decode (.ofJson j) = .error e) : decode.fromText text = .error e := by
  refine Decoder.fromText_of_error ?_
  rw [read]
  exact refused

theorem Decoder.refuses_of_error (plain : j.Plain) (refused : decode (.ofJson j) = .error e) :
    decode.Refuses j := by
  refine ⟨⟨e, refused⟩, ⟨e, ?_⟩, ⟨e, ?_⟩⟩
  · exact Decoder.fromText_of_refused (Json.Text.read_compact _ plain) refused
  · exact Decoder.fromText_of_refused (Json.Text.read_pretty _ plain) refused

end Refuses

/-- That the document of a query, alone or as a statement, is loaded as that query. -/
structure Query.Reloads (q : Query) : Prop where
  query : Query.decode.Reloads Query.toJson q
  statement : Statement.decode.Reloads Statement.toJson (.query q)

structure Query.Refused (q : Query) : Prop where
  query : Query.decode.Refuses q.toJson
  statement : Statement.decode.Refuses (Statement.query q).toJson

section Loading
variable {limit : Nat} {q : Query} {shown : FieldExpr} {output : Alias}

theorem Query.reloads (spelled : Among Query.gated Spelled q)
    (shallow : (Statement.query q).toJson.depth ≤ documentDepth) : q.Reloads := by
  have inner : q.toJson.depth ≤ documentDepth := by
    simp only [Statement.toJson, Json.tagged, Json.depth, Json.depthOfMembers] at shallow
    omega
  have whole : Among Statement.gated Spelled (.query q) := spelled
  exact ⟨(Query.restores spelled).reloads inner, (Statement.restores whole).reloads shallow⟩

theorem FieldExpr.alias_position (named : shown.alias? = some output) :
    Position .fieldExpr (.ofJson (limit + 1) shown.toJson) (.outputAlias, output.name) := by
  have member : ("alias", output.toJson) ∈
      [("expr", shown.expr.toJson)] ++ Json.member? "alias" (shown.alias?.map Alias.toJson) := by
    rw [named]
    exact List.mem_append_right _ List.mem_cons_self
  rw [FieldExpr.toJson, Reading.ofJson, Json.ofMembers_eq]
  exact .member (by simp) (List.mem_map_of_mem member) rfl .here

theorem Query.alias_position (inside : shown ∈ q.fields) (named : shown.alias? = some output) :
    Position (.tree .query) (.ofJson (limit + 3) q.toJson) (.outputAlias, output.name) := by
  obtain ⟨operation, table, distinct, distinctOn, fields, joins, filter, groupBy, having, orderBy,
    size, offset, lock, rows, assignments, returning, onConflict⟩ := q
  have item : Reading.ofJson (limit + 1) shown.toJson ∈
      Reading.ofItems (limit + 1) (fieldExprsToJson fields) := by
    rw [Json.ofItems_eq, fieldExprsToJson_eq]
    exact List.mem_map_of_mem (List.mem_map_of_mem inside)
  have list : Position (.list .fieldExpr) (.ofJson (limit + 2) (.arr (fieldExprsToJson fields)))
      (.outputAlias, output.name) := .item item (FieldExpr.alias_position named)
  rw [Query.toJson, Reading.ofJson, Json.ofMembers_eq]
  exact .tree (.member (by simp)
    (List.mem_map_of_mem (a := ("fields", .arr (fieldExprsToJson fields))) (by simp)) rfl list)

theorem Query.refused (inside : shown ∈ q.fields) (named : shown.alias? = some output)
    (barred : checkWord .outputAlias output.name ≠ .ok ()) : q.Refused := by
  have query : Form.Sound ⟨Query.decode, .tree .query, Query.gated⟩ := Query.decode_sound
  have statement : Form.Sound ⟨Statement.decode, .statement, Statement.gated⟩ :=
    Statement.decode_sound
  have alone : Position (.tree .query) (Source.ofJson q.toJson).reading
      (.outputAlias, output.name) := Query.alias_position inside named
  have within : Position .statement (Source.ofJson (Statement.query q).toJson).reading
      (.outputAlias, output.name) :=
    .content rfl List.mem_cons_self rfl (Query.alias_position inside named)
  obtain ⟨e, refused⟩ := query.refused alone barred
  obtain ⟨e', refused'⟩ := statement.refused within barred
  exact ⟨Decoder.refuses_of_error q.plain_toJson refused,
    Decoder.refuses_of_error (Statement.query q).plain_toJson refused'⟩

end Loading

section Catalog
variable {catalog : Catalog} {table : Table} {field : Field} {name : String} {output : Alias}
  {o : Occurrence}

structure Catalog.Offers (catalog : Catalog) (table : Table) (field : Field) : Prop where
  asked : catalog.check .table table.name = .ok ()
  shown : catalog.check .field field.name = .ok ()
  qualified : ∀ name, field.qualifier = some (.table name) → catalog.check .table name = .ok ()

theorem Alias.withCatalog_eq_ok :
    Alias.withCatalog catalog name = .ok output ↔
      catalog.check .outputAlias name = .ok () ∧ output = ⟨name⟩ := by
  rw [Alias.withCatalog, Except.map_eq_ok]
  constructor
  · rintro ⟨⟨⟩, checked, rfl⟩
    exact ⟨checked, rfl⟩
  · rintro ⟨checked, rfl⟩
    exact ⟨(), checked, rfl⟩

theorem JsonKey.check (catalog : Catalog) (k : JsonKey) :
    catalog.check .jsonKey k.name = .ok () := by
  have filled : ¬k.name.isEmpty = true := by
    intro empty
    have admitted := k.admitted
    rw [checkName, if_pos empty] at admitted
    cases admitted
  rw [Catalog.check, if_neg filled]
  exact k.admitted

theorem JsonPath.check (catalog : Catalog) (path : JsonPath) (member : o ∈ path.occurrences) :
    catalog.check o.1 o.2 = .ok () := by
  obtain ⟨segment, -, inside⟩ := List.mem_flatMap.mp member
  cases segment with
  | index i => cases inside
  | key k =>
    obtain rfl := List.mem_singleton.mp inside
    exact k.check catalog

theorem Catalog.Offers.check (offers : catalog.Offers table field)
    (member : o ∈ field.occurrences) : catalog.check o.1 o.2 = .ok () := by
  obtain ⟨name, qualifier, path⟩ := field
  simp only [Field.occurrences, List.mem_append, List.mem_singleton] at member
  rcases member with (rfl | qualified) | entered
  · exact offers.shown
  · rcases qualifier with _ | table | letter
    · cases qualified
    · obtain rfl := List.mem_singleton.mp qualified
      exact offers.qualified table rfl
    · cases qualified
  · cases path with
    | none => cases entered
    | some path => exact path.check catalog entered

theorem Catalog.validateStatement_eq_nil {q : Query}
    (checked : catalog.check .outputAlias name = .ok ())
    (others : ∀ o ∈ q.occurrences, o ≠ (.outputAlias, name) → catalog.check o.1 o.2 = .ok ()) :
    catalog.validateStatement (.query q) = [] := by
  refine Catalog.faults_eq_nil_iff.mpr fun o member => ?_
  by_cases same : o = (.outputAlias, name)
  · exact same ▸ checked
  · exact others o member same

end Catalog

def fieldUnder (table : Table) (field : Field) (output : Alias) : Query :=
  { operation := .select, table, fields := [.aliased (.field field) output] }

section FieldUnder
variable {table : Table} {field : Field} {output : Alias}

theorem occurrences_fieldUnder : (fieldUnder table field output).occurrences =
    table.occurrences ++ (field.occurrences ++ output.occurrences) := by
  simp [fieldUnder, FieldExpr.aliased, Query.occurrences_eq, FieldExpr.occurrences,
    Expr.occurrences]

theorem gated_fieldUnder : (fieldUnder table field output).gated =
    table.gated ++ (field.gated ++ output.gated) := by
  simp [fieldUnder, FieldExpr.aliased, Query.gated, projectedGated_eq, FieldExpr.gated,
    Expr.gated, joinsGated, optionalGated, orderGated, assignmentsGated]

theorem Decoder.Restores.spelled {α : Type} {decode : Decoder α} {j : Json} {a : α}
    {layout : Layout} {names : α → List GatedName} (restores : decode.Restores (j.depth + 1) j a)
    (sound : decode.Sound layout (Among names)) : Among names Spelled a := by
  obtain ⟨asks, admitted⟩ := sound _ a ((restores (Nat.lt_succ_self _)).read false)
  exact asks Spelled fun n position _ => admitted n position

theorem spelled_fieldUnder (word : checkWord .outputAlias output.name = .ok ()) :
    Among Query.gated Spelled (fieldUnder table field output) := by
  have asked : Among Table.gated Spelled table := table.restores.spelled Table.decode_sound
  have shown : Among Field.gated Spelled field := field.restores.spelled Field.decode_sound
  have named : Among Alias.gated Spelled output := List.forall_mem_singleton.mpr fun _ => word
  rw [Among, gated_fieldUnder]
  exact List.forall_mem_append.mpr ⟨asked, List.forall_mem_append.mpr ⟨shown, named⟩⟩

end FieldUnder

section Depth

theorem Json.depthOfMembers_append (first rest : List (String × Json)) :
    depthOfMembers (first ++ rest) = max (depthOfMembers first) (depthOfMembers rest) := by
  induction first with
  | nil => simp [depthOfMembers]
  | cons member first ih => rw [List.cons_append, depthOfMembers, depthOfMembers, ih, max_assoc]

theorem Json.depthOfMembers_member? {n : Nat} {key : String} {value : Option Json}
    (given : ∀ j ∈ value, j.depth ≤ n) : depthOfMembers (member? key value) ≤ n := by
  cases value with
  | none => exact Nat.zero_le n
  | some j => exact Nat.max_le.mpr ⟨given j rfl, Nat.zero_le n⟩

theorem PathSegment.depth_toJson (s : PathSegment) : s.toJson.depth ≤ 1 := by
  cases s <;> exact Nat.le_refl 1

theorem JsonPath.depth_toJson (p : JsonPath) : p.toJson.depth ≤ 3 := by
  have segments : Json.depthOfItems (p.segments.map PathSegment.toJson) ≤ 1 :=
    Json.depthOfItems_le (List.forall_mem_map.mpr fun s _ => s.depth_toJson)
  simp only [JsonPath.toJson, Json.depth, Json.depthOfMembers]
  omega

theorem Qualifier.depth_toJson (q : Qualifier) : q.toJson.depth ≤ 1 := by
  cases q <;> exact Nat.le_refl 1

theorem Field.depth_toJson (f : Field) : f.toJson.depth ≤ 4 := by
  have qualified : Json.depthOfMembers
      (Json.member? "qualifier" (f.qualifier.map Qualifier.toJson)) ≤ 1 :=
    Json.depthOfMembers_member? (Option.forall_mem_map.mpr fun q _ => q.depth_toJson)
  have entered : Json.depthOfMembers (Json.member? "json" (f.path.map JsonPath.toJson)) ≤ 3 :=
    Json.depthOfMembers_member? (Option.forall_mem_map.mpr fun p _ => p.depth_toJson)
  simp only [Field.toJson, Json.depth, Json.depthOfMembers_append, Json.depthOfMembers]
  omega

theorem Table.depth_toJson (t : Table) : t.toJson.depth ≤ 1 := by
  obtain ⟨name, alias?⟩ := t
  cases alias? <;> exact Nat.le_refl 1

theorem depth_fieldUnder (table : Table) (field : Field) (output : Alias) :
    (Statement.query (fieldUnder table field output)).toJson.depth ≤ documentDepth := by
  have asked := table.depth_toJson
  have shown := field.depth_toJson
  have room : 9 ≤ documentDepth := by decide
  refine le_trans ?_ room
  simp only [Statement.toJson, Query.toJson, fieldUnder, FieldExpr.aliased, fieldExprsToJson,
    Expr.toJson, Alias.toJson, fieldsToJson, joinsToJson, conditionToJson?, orderToJson,
    assignmentsToJson, Json.ofOption, Json.tagged, Json.member?, Json.depth, Json.depthOfItems,
    Json.depthOfMembers, Tagged.toJson, Option.map_some, Option.getD_none, List.map_nil,
    List.cons_append, List.nil_append]
  omega

end Depth

/-- An output name that a catalog admits is no fault wherever it is used. A document that shows
    something under it is loaded again if it is a word, and refused if it is not. -/
theorem admitted_aliases_reload {catalog : Catalog} {name : String} {output : Alias}
    (admitted : Alias.withCatalog catalog name = .ok output) :
    (∀ table field, catalog.Offers table field →
      catalog.validateStatement (.query (fieldUnder table field output)) = [] ∧
      (checkWord .outputAlias name = .ok () → (fieldUnder table field output).Reloads) ∧
      (checkWord .outputAlias name ≠ .ok () → (fieldUnder table field output).Refused)) ∧
    ∀ (q : Query) (shown : FieldExpr), shown ∈ q.fields → shown.alias? = some output →
      (∀ o ∈ q.occurrences, o ≠ (.outputAlias, name) → catalog.check o.1 o.2 = .ok ()) →
      catalog.validateStatement (.query q) = [] ∧
      ((∀ n ∈ q.gated, n.1 = .outputAlias → checkWord .outputAlias n.2 = .ok ()) →
        (Statement.query q).toJson.depth ≤ documentDepth → q.Reloads) ∧
      (checkWord .outputAlias name ≠ .ok () → q.Refused) := by
  obtain ⟨checked, rfl⟩ := Alias.withCatalog_eq_ok.mp admitted
  constructor
  · intro table field offers
    have others : ∀ o ∈ (fieldUnder table field ⟨name⟩).occurrences, o ≠ (.outputAlias, name) →
        catalog.check o.1 o.2 = .ok () := by
      intro o member other
      rw [occurrences_fieldUnder, List.mem_append, List.mem_append] at member
      rcases member with asked | shown | named
      · exact List.mem_singleton.mp asked ▸ offers.asked
      · exact offers.check shown
      · exact absurd (List.mem_singleton.mp named) other
    exact ⟨Catalog.validateStatement_eq_nil checked others,
      fun word => Query.reloads (spelled_fieldUnder word) (depth_fieldUnder table field _),
      Query.refused List.mem_cons_self rfl⟩
  · intro q shown inside named others
    refine ⟨Catalog.validateStatement_eq_nil checked others, fun words shallow => ?_,
      Query.refused inside named⟩
    refine Query.reloads ?_ shallow
    rintro ⟨gate, n⟩ member rfl
    exact words _ member rfl

def usersRegistry : Registry :=
  ((Registry.empty.registerTable "users" ["id"]).registerAlias "select").registerAlias
    "total amount"

def countUnderKeyword : Query :=
  { operation := .select, table := { name := "users" }
    fields := [
      .aliased (.aggregateOf .count none) ⟨"select"⟩,
      .aliased (.field { name := "id" }) ⟨"id"⟩]
    groupBy := [{ name := "id" }] }

theorem countUnderKeyword_reloads :
    (∃ e, Alias.new "select" = .error e) ∧
      Alias.withCatalog usersRegistry.catalog "select" = .ok ⟨"select"⟩ ∧
      (fieldUnder { name := "users" } { name := "id" } ⟨"select"⟩).Reloads ∧
      usersRegistry.catalog.validateStatement (.query countUnderKeyword) = [] ∧
      countUnderKeyword.Reloads := by
  have admitted : Alias.withCatalog usersRegistry.catalog "select" = .ok ⟨"select"⟩ := by decide
  obtain ⟨single, others⟩ := admitted_aliases_reload admitted
  have offers : usersRegistry.catalog.Offers { name := "users" } { name := "id" } :=
    ⟨by decide, by decide, nofun⟩
  obtain ⟨valid, reloads, -⟩ := others countUnderKeyword _ List.mem_cons_self rfl (by decide)
  exact ⟨⟨_, rfl⟩, admitted, (single _ _ offers).2.1 (by decide), valid,
    reloads (by decide) (by decide)⟩

/-- A registered name that is no word passes validation in a document that cannot be loaded. -/
theorem spacedAlias_refused :
    Alias.withCatalog usersRegistry.catalog "total amount" = .ok ⟨"total amount"⟩ ∧
      usersRegistry.catalog.Offers { name := "users" } { name := "id" } ∧
      usersRegistry.catalog.validateStatement
        (.query (fieldUnder { name := "users" } { name := "id" } ⟨"total amount"⟩)) = [] ∧
      Query.decode.fromText
          (fieldUnder { name := "users" } { name := "id" } ⟨"total amount"⟩).toJson.compact =
        .error (.name (.malformed .outputAlias "total amount" .badCharacter)) := by
  refine ⟨by decide, ⟨by decide, by decide, nofun⟩, by decide, ?_⟩
  exact Decoder.fromText_of_refused (Json.Text.read_compact _ (Query.plain_toJson _)) rfl

end TypedSql
