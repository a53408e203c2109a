import TypedSql.Proofs.Document.Saved
import TypedSql.Proofs.Gates

namespace TypedSql

/-- That a value is loaded from what is written for it, as a document and as a text in either
    layout. -/
structure Decoder.Reloads {α : Type} (decode : Decoder α) (write : α → Json) (a : α) : Prop where
  document : decode (.ofJson (write a)) = .ok a
  compact : decode.fromText (write a).compact = .ok a
  pretty : decode.fromText (write a).pretty = .ok a

/-- That what is loaded from the texts for a value is written like the value. -/
structure Decoder.Rewrites {α : Type} (decode : Decoder α) (write : α → Json) (a : α) : Prop where
  compact : (decode.fromText (write a).compact).map write = .ok (write a)
  pretty : (decode.fromText (write a).pretty).map write = .ok (write a)

section Reloads
variable {α : Type} {decode : Decoder α} {write : α → Json} {a : α}

theorem Decoder.fromText_of_read {text : String} {j : Json}
    (read : Json.Text.read documentDepth text = ⟨j.reading, true⟩)
    (success : decode ⟨j.reading, false⟩ = .ok a) : decode.fromText text = .ok a := by
  simp only [Decoder.fromText, read, Except.bind_eq_ok]
  exact ⟨a, success, rfl⟩

theorem Decoder.Restores.reloads (restores : decode.Restores (documentDepth + 1) (write a) a)
    (shallow : (write a).depth ≤ documentDepth) : decode.Reloads write a := by
  obtain ⟨plain, -, read⟩ := restores (Nat.lt_succ_of_le shallow)
  have unlimited : Json.Reading.ofJson documentDepth (write a) = (write a).reading :=
    Json.ofJson_of_depth_le (write a) shallow
  refine ⟨?_, Decoder.fromText_of_read ?_ (read false), Decoder.fromText_of_read ?_ (read false)⟩
  · rw [Source.ofJson, unlimited]
    exact read false
  · rw [Json.Text.read_compact documentDepth plain, unlimited]
  · rw [Json.Text.read_pretty documentDepth plain, unlimited]

theorem Decoder.Reloads.rewrites (reloads : decode.Reloads write a) : decode.Rewrites write a :=
  ⟨by rw [reloads.compact]; rfl, by rw [reloads.pretty]; rfl⟩

end Reloads

section Depth

theorem Json.depthOfItems_le {n : Nat} {items : List Json} (each : ∀ j ∈ items, j.depth ≤ n) :
    depthOfItems items ≤ n := by
  induction items with
  | nil => exact Nat.zero_le n
  | cons item rest ih =>
    obtain ⟨first, others⟩ := List.forall_mem_cons.mp each
    exact Nat.max_le.mpr ⟨first, ih others⟩

theorem ColumnDef.depth_toJson (c : ColumnDef) : c.toJson.depth ≤ 1 := by
  obtain ⟨name, type, nullable, primaryKey, unique, references, defaultValue⟩ := c
  cases references <;> cases defaultValue <;> exact Nat.le_refl 1

theorem TableDef.depth_toJson (t : TableDef) : t.toJson.depth ≤ 3 := by
  have columns : Json.depthOfItems (t.columns.map ColumnDef.toJson) ≤ 1 :=
    Json.depthOfItems_le (List.forall_mem_map.mpr fun c _ => c.depth_toJson)
  simp only [TableDef.toJson, Json.depth, Json.depthOfMembers]
  omega

theorem Schema.depth_toJson (s : Schema) : s.toJson.depth ≤ 5 := by
  have tables : Json.depthOfItems (s.tables.map TableDef.toJson) ≤ 3 :=
    Json.depthOfItems_le (List.forall_mem_map.mpr fun t _ => t.depth_toJson)
  have aliases : Json.depthOfItems (s.aliases.map Json.str) ≤ 0 :=
    Json.depthOfItems_le (List.forall_mem_map.mpr fun _ _ => Nat.le_refl 0)
  simp only [Schema.toJson, Json.ofStrings, Json.depth, Json.depthOfMembers]
  omega

theorem RenderOptions.depth_toJson (o : RenderOptions) : o.toJson.depth ≤ 1 := Nat.le_refl 1

end Depth

/-- What is loaded has passed the gates that writing it asks for. -/
theorem Statement.spelled_of_fromText {text : String} {statement : Statement}
    (loaded : Statement.decode.fromText text = .ok statement) :
    Among Statement.gated Spelled statement := by
  obtain ⟨asks, admitted⟩ := Statement.decode_sound _ _ (Decoder.ok_of_fromText loaded)
  exact asks Spelled fun n position _ => admitted n position

/-- Saved documents load back unchanged, and what was loaded may be saved and loaded again. -/
theorem saved_documents_reload :
    (∀ statement : Statement,
      (∀ n ∈ statement.gated, n.1 = .outputAlias → checkWord .outputAlias n.2 = .ok ()) →
      statement.toJson.depth ≤ documentDepth →
      Statement.decode.Reloads Statement.toJson statement) ∧
    (∀ schema, Schema.decode.Reloads Schema.toJson schema) ∧
    (∀ options, RenderOptions.decode.Reloads RenderOptions.toJson options) ∧
    (∀ (text : String) statement, Statement.decode.fromText text = .ok statement →
      statement.toJson.depth ≤ documentDepth →
      Statement.decode.Reloads Statement.toJson statement ∧
        Statement.decode.Rewrites Statement.toJson statement) ∧
    (∀ (text : String) schema, Schema.decode.fromText text = .ok schema →
      Schema.decode.Reloads Schema.toJson schema ∧ Schema.decode.Rewrites Schema.toJson schema) ∧
    ∀ (text : String) options, RenderOptions.decode.fromText text = .ok options →
      RenderOptions.decode.Reloads RenderOptions.toJson options ∧
        RenderOptions.decode.Rewrites RenderOptions.toJson options := by
  have statements {statement : Statement} (spelled : Among Statement.gated Spelled statement)
      (shallow : statement.toJson.depth ≤ documentDepth) :
      Statement.decode.Reloads Statement.toJson statement :=
    (Statement.restores spelled).reloads shallow
  have schemas (schema : Schema) : Schema.decode.Reloads Schema.toJson schema :=
    schema.restores.reloads (le_trans schema.depth_toJson (by decide))
  have settings (options : RenderOptions) :
      RenderOptions.decode.Reloads RenderOptions.toJson options :=
    options.restores.reloads (le_trans options.depth_toJson (by decide))
  refine ⟨fun statement words shallow => ?_, schemas, settings,
    fun text statement loaded shallow => ?_, fun text schema _ => ?_, fun text options _ => ?_⟩
  · refine statements ?_ shallow
    rintro ⟨gate, name⟩ member rfl
    exact words _ member rfl
  · have reloads := statements (Statement.spelled_of_fromText loaded) shallow
    exact ⟨reloads, reloads.rewrites⟩
  · exact ⟨schemas schema, (schemas schema).rewrites⟩
  · exact ⟨settings options, (settings options).rewrites⟩

def totalOfRows : Statement :=
  .query
    { operation := .select, table := { name := "a" }
      fields := [⟨.aggregate ⟨.count, none, none⟩, some ⟨"total"⟩⟩] }

theorem totalOfRows_reloads :
    Statement.decode.Reloads Statement.toJson totalOfRows ∧
      Statement.decode.Rewrites Statement.toJson totalOfRows := by
  obtain ⟨saved, -, -, loaded, -⟩ := saved_documents_reload
  have words : ∀ n ∈ totalOfRows.gated, n.1 = .outputAlias → checkWord .outputAlias n.2 = .ok () := by
    decide
  have shallow : totalOfRows.toJson.depth ≤ documentDepth := by decide
  have reloads := saved totalOfRows words shallow
  exact loaded _ totalOfRows reloads.compact shallow

end TypedSql
