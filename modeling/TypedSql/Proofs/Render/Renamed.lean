import TypedSql.Proofs.Render.Rename

namespace TypedSql

def Node.rename (ρ : Renaming) : Node → Node
  | .expr e => .expr (e.rename ρ)
  | .projected f => .projected (f.rename ρ)
  | .ordered o => .ordered (o.rename ρ)
  | .whenClause w => .whenClause (w.rename ρ)
  | .condition scope nested x => .condition scope nested (x.rename ρ)
  | .join j => .join (j.rename ρ)
  | .assigned v => .assigned (v.rename ρ)
  | .query q => .query (q.rename ρ)

def Node.part : Node → Part
  | .expr e => .expr e
  | .projected f => .projected f
  | .ordered o => .ordered o
  | .whenClause w => .whenClause w
  | .condition _ _ x => .condition x
  | .join j => .join j
  | .assigned (.param p) => .operand (.param p)
  | .assigned (.expr e) => .expr e
  | .query q => .query q

section Pairs
variable {α β γ δ : Type} (f : α → β) (g : γ → δ)

theorem map_fst_map (pairs : List (α × γ)) :
    (pairs.map (Prod.map f g)).map Prod.fst = (pairs.map Prod.fst).map f := by
  simp [Function.comp_def]

theorem map_snd_map (pairs : List (α × γ)) :
    (pairs.map (Prod.map f g)).map Prod.snd = (pairs.map Prod.snd).map g := by
  simp [Function.comp_def]

theorem optionMap_fst_map (pair : Option (α × γ)) :
    (pair.map (Prod.map f g)).map Prod.fst = (pair.map Prod.fst).map f := by
  cases pair <;> rfl

theorem optionMap_snd_map (pair : Option (α × γ)) :
    (pair.map (Prod.map f g)).map Prod.snd = (pair.map Prod.snd).map g := by
  cases pair <;> rfl

theorem forall_mem_listMap {P : β × δ → Prop} {pairs : List (α × γ)}
    (each : ∀ p ∈ pairs, P (Prod.map f g p)) : ∀ p ∈ pairs.map (Prod.map f g), P p :=
  List.forall_mem_map.mpr each

theorem forall_mem_optionMap {P : β × δ → Prop} {pair : Option (α × γ)}
    (each : ∀ p ∈ pair, P (Prod.map f g p)) : ∀ p ∈ pair.map (Prod.map f g), P p := by
  cases pair with
  | none => simp
  | some p => simpa using each p rfl

theorem forall_of_listed {K : α → Prop} {P : α × γ → Prop} {xs : List α} {pairs : List (α × γ)}
    (listed : xs = pairs.map Prod.fst) (keeps : ∀ x ∈ xs, K x) (each : ∀ p ∈ pairs, K p.1 → P p) :
    ∀ p ∈ pairs, P p :=
  fun p member => each p member (keeps p.1 (listed ▸ List.mem_map_of_mem member))

theorem forall_of_given {K : α → Prop} {P : α × γ → Prop} {x : Option α} {pair : Option (α × γ)}
    (given : x = pair.map Prod.fst) (keeps : ∀ y ∈ x, K y) (each : ∀ p ∈ pair, K p.1 → P p) :
    ∀ p ∈ pair, P p :=
  fun p member => each p member (keeps p.1 (given ▸ Option.mem_map_of_mem _ member))

end Pairs

section Single
variable (ρ : Renaming) {d : Dialect}

theorem Field.renamed {f : Field} {s : Sql} (made : f.render d = .ok s) :
    (f.rename ρ).render d = .ok (s.rename ρ) := by
  rw [Field.render_rename, made]
  rfl

theorem aggregateField_renamed {kind : AggregateKind} {f : Option Field} {missing : Missing}
    {column : Option Sql} (made : aggregateField d kind f missing = .ok column) :
    aggregateField d kind (f.map (Field.rename ρ)) missing = .ok (column.map (Sql.rename ρ)) := by
  rw [aggregateField_rename, made]
  rfl

@[simp] theorem rename_getD (column : Option Sql) (t : String) :
    Sql.rename ρ (column.getD (sql t)) = (column.map (Sql.rename ρ)).getD (sql t) := by
  cases column <;> rfl

end Single

theorem Expr.isAggregate_rename (ρ : Renaming) (e : Expr) :
    (e.rename ρ).isAggregate = e.isAggregate := by
  rcases e with _ | ⟨_, _, _⟩ | ⟨_, _⟩ | _ | _ | _ | _ | ⟨_, _, _, _, _, _, _, _⟩ | _ <;> rfl

theorem Expr.checkAssigned_rename (ρ : Renaming) (e : Expr) :
    checkAssigned (.expr (e.rename ρ)) = checkAssigned (.expr e) := by
  rcases e with _ | ⟨_, _, _⟩ | ⟨_, _⟩ | _ | _ | _ | _ | ⟨_, _, _, _, _, _, _, _⟩ | _ <;> rfl

section Constituents
variable {ρ : Renaming}

/-- The columns of each clause are columns of the query. -/
structure Query.KeepsOrder (ρ : Renaming) (q : Query) : Prop where
  fields : ∀ f ∈ q.fields, ρ.KeepsOrder (Part.projected f).occurrences
  joins : ∀ j ∈ q.joins, ρ.KeepsOrder (Part.join j).occurrences
  filter : ∀ x ∈ q.filter, ρ.KeepsOrder (Part.condition x).occurrences
  having : ∀ x ∈ q.having, ρ.KeepsOrder (Part.condition x).occurrences
  orderBy : ∀ o ∈ q.orderBy, ρ.KeepsOrder (Part.ordered o).occurrences
  rows : ρ.KeepsOrder (q.rows.flatMap Row.occurrences)
  assignments : ρ.KeepsOrder (q.assignments.flatMap Assignment.occurrences)
  onConflict : ρ.KeepsOrder (q.onConflict.elim [] OnConflict.occurrences)

theorem Query.keepsOrder {q : Query} (keeps : ρ.KeepsOrder (Part.query q).occurrences) :
    q.KeepsOrder ρ where
  fields _ member := keeps.below (by simp [Part.parts, Query.parts, member])
  joins _ member := keeps.below (by simp [Part.parts, Query.parts, member])
  filter _ member := keeps.below (by simp [Part.parts, Query.parts, Option.mem_def.mp member])
  having _ member := keeps.below (by simp [Part.parts, Query.parts, Option.mem_def.mp member])
  orderBy _ member := keeps.below (by simp [Part.parts, Query.parts, member])
  rows := keeps.mono fun _ found => by simp_all [Part.occurrences, Query.occurrences_eq]
  assignments := keeps.mono fun _ found => by simp_all [Part.occurrences, Query.occurrences_eq]
  onConflict := keeps.mono fun _ found => by simp_all [Part.occurrences, Query.occurrences_eq]

theorem Assignment.keeps_value {a : Assignment} (keeps : ρ.KeepsOrder a.occurrences) :
    ρ.KeepsOrder (Node.assigned a.value).part.occurrences := by
  obtain ⟨target, value⟩ := a
  cases value with
  | param p => exact keeps.mono (List.nil_subset _)
  | expr e => exact keeps.mono (List.subset_append_right _ _)

end Constituents

theorem Query.KeepsOrder.value {ρ : Renaming} {q : Query} (keeps : q.KeepsOrder ρ) :
    ∀ a ∈ q.assignments, ρ.KeepsOrder (Node.assigned a.value).part.occurrences :=
  fun a member => a.keeps_value (keeps.assignments.mono fun _ found =>
    List.mem_flatMap.mpr ⟨a, member, found⟩)

section Cases
variable (ρ : Renaming) {c : Context} {q : Query} {fields : List (FieldExpr × Sql)}
  {joins : List (Join × Sql)} {filter having : Option (Condition × Sql)}
  {items : List (OrderBy × Sql)} {sets : List (Assignment × Sql)} {output returning : Sql}

theorem Renders.rename_window {w : WindowCall} {call : Sql} {partitioned framed : List Sql}
    (called : w.Calls c call)
    (partition : WindowCall.partitionParts c.dialect w.window.partitionBy = .ok partitioned)
    (listed : w.window.orderBy = items.map Prod.fst)
    (order : ∀ o ∈ items, Renders c (.ordered (o.1.rename ρ)) (o.2.rename ρ))
    (frame : WindowCall.frameParts w.window.frame = .ok framed) :
    Renders c (.expr ((Expr.window w).rename ρ))
      (Sql.rename ρ (call ++ sql " OVER (" ++
        Sql.join " " (partitioned ++ windowOrder (items.map Prod.snd) ++ framed) ++ sql ")")) := by
  have partition' : WindowCall.partitionParts c.dialect (w.rename ρ).window.partitionBy =
      .ok (partitioned.map (Sql.rename ρ)) := by
    rw [WindowCall.rename, WindowCall.partitionParts_rename, partition]
    rfl
  have listed' : (w.rename ρ).window.orderBy =
      (items.map (Prod.map (OrderBy.rename ρ) (Sql.rename ρ))).map Prod.fst := by
    rw [map_fst_map, ← listed]
    rfl
  have framed' : framed.map (Sql.rename ρ) = framed := by
    rw [WindowCall.frameParts_ok frame, List.map_map]
    rfl
  have made := Renders.window (called.rename ρ) partition' listed'
    (forall_mem_listMap (OrderBy.rename ρ) (Sql.rename ρ) order) frame
  rw [map_snd_map] at made
  simpa [Expr.rename_window, framed'] using made

theorem Renders.rename_select {distinct groupBy : Sql} {lock : Sql × Sql}
    (operation : q.operation = .select) (clauses : q.checkClauses = .ok ())
    (rules : q.checkSelect = .ok ())
    (distinctly : renderDistinct c.dialect q.distinct q.distinctOn = .ok distinct)
    (fieldsListed : q.fields = fields.map Prod.fst)
    (projects : ∀ f ∈ fields, Renders c (.projected (f.1.rename ρ)) (f.2.rename ρ))
    (locks : renderLock c.dialect q.lock = .ok lock)
    (joinsListed : q.joins = joins.map Prod.fst)
    (joined : ∀ j ∈ joins, Renders c (.join (j.1.rename ρ)) (j.2.rename ρ))
    (filterGiven : q.filter = filter.map Prod.fst)
    (filters : ∀ x ∈ filter, Renders c (.condition .whereClause false (x.1.rename ρ))
      (x.2.rename ρ))
    (groups : renderGroupBy c.dialect q.groupBy = .ok groupBy)
    (havingGiven : q.having = having.map Prod.fst)
    (havings : ∀ x ∈ having, Renders c (.condition .having false (x.1.rename ρ)) (x.2.rename ρ))
    (itemsListed : q.orderBy = items.map Prod.fst)
    (order : ∀ o ∈ items, Renders c (.ordered (o.1.rename ρ)) (o.2.rename ρ)) :
    Renders c (.query (q.rename ρ))
      (Sql.rename ρ (q.selectText c distinct (fields.map Prod.snd) lock (joins.map Prod.snd)
        (filter.map Prod.snd) groupBy (having.map Prod.snd) (items.map Prod.snd))) := by
  have hints : Sql.rename ρ lock.1 = lock.1 ∧ Sql.rename ρ lock.2 = lock.2 := by
    have nameless : Sql.names lock.1 = [] ∧ Sql.names lock.2 = [] := filterMap_lock locks
    exact ⟨Sql.rename_of_nameless ρ nameless.1, Sql.rename_of_nameless ρ nameless.2⟩
  have made := Renders.select (q := q.rename ρ) (by simpa using operation)
    (by rwa [Query.checkClauses_rename]) (by rwa [Query.checkSelect_rename])
    (by simpa [renderDistinct_rename] using Except.map_eq_of_ok distinctly (Sql.rename ρ))
    (by rw [Query.fields_rename, fieldsListed, map_fst_map])
    (forall_mem_listMap (FieldExpr.rename ρ) (Sql.rename ρ) projects) (by simpa using locks)
    (by rw [Query.joins_rename, joinsListed, map_fst_map])
    (forall_mem_listMap (Join.rename ρ) (Sql.rename ρ) joined)
    (by rw [Query.filter_rename, filterGiven, optionMap_fst_map])
    (forall_mem_optionMap (Condition.rename ρ) (Sql.rename ρ) filters)
    (by simpa [renderGroupBy_rename] using Except.map_eq_of_ok groups (Sql.rename ρ))
    (by rw [Query.having_rename, havingGiven, optionMap_fst_map])
    (forall_mem_optionMap (Condition.rename ρ) (Sql.rename ρ) havings)
    (by rw [Query.orderBy_rename, itemsListed, map_fst_map])
    (forall_mem_listMap (OrderBy.rename ρ) (Sql.rename ρ) order)
  rw [map_snd_map, map_snd_map, map_snd_map, optionMap_snd_map, optionMap_snd_map] at made
  simpa [Query.selectText, hints] using made

theorem Renders.rename_count (operation : q.operation = .count) (clauses : q.checkClauses = .ok ())
    (joinsListed : q.joins = joins.map Prod.fst)
    (joined : ∀ j ∈ joins, Renders c (.join (j.1.rename ρ)) (j.2.rename ρ))
    (filterGiven : q.filter = filter.map Prod.fst)
    (filters : ∀ x ∈ filter, Renders c (.condition .whereClause false (x.1.rename ρ))
      (x.2.rename ρ)) :
    Renders c (.query (q.rename ρ))
      (Sql.rename ρ (q.countText (joins.map Prod.snd) (filter.map Prod.snd))) := by
  have made := Renders.count (q := q.rename ρ) (by simpa using operation)
    (by rwa [Query.checkClauses_rename])
    (by rw [Query.joins_rename, joinsListed, map_fst_map])
    (forall_mem_listMap (Join.rename ρ) (Sql.rename ρ) joined)
    (by rw [Query.filter_rename, filterGiven, optionMap_fst_map])
    (forall_mem_optionMap (Condition.rename ρ) (Sql.rename ρ) filters)
  rw [map_snd_map, optionMap_snd_map] at made
  simpa [Query.countText] using made

theorem Renders.rename_insert {first : Row} {upsert : Sql} (keeps : q.KeepsOrder ρ)
    (operation : q.operation = .insert) (clauses : q.checkClauses = .ok ())
    (shaped : checkRows q.rows = .ok first) (styled : c.HasPlaceholders)
    (outputs : renderOutput c.dialect .inserted q.returning = .ok output)
    (upserts : Upserts c q.onConflict upsert)
    (returns : renderReturning c.dialect q.returning = .ok returning) :
    Renders c (.query (q.rename ρ)) (Sql.rename ρ (q.insertText c first output upsert returning)) := by
  have row {r : Row} (member : r ∈ q.rows) : ρ.KeepsOrder r.occurrences :=
    keeps.rows.mono fun o found => List.mem_flatMap.mpr ⟨r, member, found⟩
  have shaped' : checkRows (q.rename ρ).rows = .ok (first.rename ρ) := by
    rw [Query.rows_rename, checkRows_rename keeps.rows, shaped]
    rfl
  have upserts' : Upserts c (q.rename ρ).onConflict (upsert.rename ρ) := by
    rw [Query.onConflict_rename]
    exact upserts.rename keeps.onConflict
  have made := Renders.insert (q := q.rename ρ) (by simpa using operation)
    (by rwa [Query.checkClauses_rename]) shaped' styled
    (by simpa [renderOutput_rename] using Except.map_eq_of_ok outputs (Sql.rename ρ)) upserts'
    (by simpa [renderReturning_rename] using Except.map_eq_of_ok returns (Sql.rename ρ))
  have columns : (first.rename ρ).names.map (fun column => [Piece.name .field column]) =
      (first.names.map fun column => [Piece.name .field column]).map (Sql.rename ρ) := by
    rw [NameMap.names_rename (row (checkRows_ok shaped).1)]
    simp [Renaming.apply]
  have tuples : (q.rename ρ).rows.map (tuple c) = (q.rows.map (tuple c)).map (Sql.rename ρ) := by
    rw [Query.rows_rename, List.map_map, List.map_map]
    refine List.map_congr_left fun r member => ?_
    rw [Function.comp_apply, Function.comp_apply, tuple_rename c (row member), rename_tuple]
  rw [Query.insertText, columns, tuples, Query.onConflict_rename, insertKeyword_rename] at made
  simpa only [Query.insertText, Sql.rename_append, Sql.rename_sql, Sql.rename_commaList,
    Query.table_rename, Table.render_rename] using made

theorem Renders.rename_update (keeps : q.KeepsOrder ρ) (operation : q.operation = .update)
    (clauses : q.checkClauses = .ok ()) (assigned : sets ≠ [])
    (setsListed : q.assignments = sets.map Prod.fst)
    (values : ∀ a ∈ sets, Renders c (.assigned (a.1.value.rename ρ)) (a.2.rename ρ))
    (plain : ∀ a ∈ sets, a.1.field.isPlain = true)
    (unrepeated : repeatedNeighbour? (sortAssignments (sets.map fun a => (a.1.field, a.2))) = none)
    (outputs : renderOutput c.dialect .inserted q.returning = .ok output)
    (filterGiven : q.filter = filter.map Prod.fst)
    (filters : ∀ x ∈ filter, Renders c (.condition .whereClause false (x.1.rename ρ))
      (x.2.rename ρ))
    (returns : renderReturning c.dialect q.returning = .ok returning) :
    Renders c (.query (q.rename ρ))
      (Sql.rename ρ (q.updateText (sets.map fun a => (a.1.field, a.2)) output
        (filter.map Prod.snd) returning)) := by
  -- the columns keep their order, so they may be sorted before they are renamed
  have targets : ρ.KeepsOrder ((sets.map fun a => (a.1.field, a.2)).map
      fun a => (.field, a.1.name)) := by
    refine keeps.assignments.mono fun o found => ?_
    simp only [List.map_map, List.mem_map] at found
    obtain ⟨a, member, rfl⟩ := found
    rw [setsListed, List.flatMap_map]
    exact List.mem_flatMap.mpr ⟨a, member, by simp [Assignment.occurrences, Field.occurrences]⟩
  have sorted : ρ.KeepsOrder ((sortAssignments (sets.map fun a => (a.1.field, a.2))).map
      fun a => (.field, a.1.name)) :=
    targets.mono (List.map_subset _ fun a member => mem_sortAssignments.mp member)
  have paired : (sets.map (Prod.map (Assignment.rename ρ) (Sql.rename ρ))).map
      (fun a => (a.1.field, a.2)) =
        (sets.map fun a => (a.1.field, a.2)).map (Prod.map (Field.rename ρ) (Sql.rename ρ)) := by
    simp [Assignment.rename]
  have made := Renders.update (q := q.rename ρ) (by simpa using operation)
    (by rwa [Query.checkClauses_rename]) (by simpa using assigned)
    (by rw [Query.assignments_rename, setsListed, map_fst_map])
    (forall_mem_listMap (Assignment.rename ρ) (Sql.rename ρ) values)
    (forall_mem_listMap _ _ fun a member => by simpa [Assignment.rename] using plain a member)
    (by rw [paired, sortAssignments_rename _ targets, repeatedNeighbour?_rename _ sorted,
      unrepeated, Option.map_none])
    (by simpa [renderOutput_rename] using Except.map_eq_of_ok outputs (Sql.rename ρ))
    (by rw [Query.filter_rename, filterGiven, optionMap_fst_map])
    (forall_mem_optionMap (Condition.rename ρ) (Sql.rename ρ) filters)
    (by simpa [renderReturning_rename] using Except.map_eq_of_ok returns (Sql.rename ρ))
  have written (xs : List (Field × Sql)) :
      (xs.map (Prod.map (Field.rename ρ) (Sql.rename ρ))).map assignmentSql =
        (xs.map assignmentSql).map (Sql.rename ρ) := by
    simp [Function.comp_def, rename_assignmentSql]
  rw [Query.updateText, paired, sortAssignments_rename _ targets, written,
    optionMap_snd_map] at made
  simpa only [Query.updateText, Sql.rename_append, Sql.rename_sql, Sql.rename_commaList,
    Query.table_rename, Table.render_rename, rename_conditional] using made

theorem Renders.rename_delete (operation : q.operation = .delete)
    (clauses : q.checkClauses = .ok ())
    (outputs : renderOutput c.dialect .deleted q.returning = .ok output)
    (filterGiven : q.filter = filter.map Prod.fst)
    (filters : ∀ x ∈ filter, Renders c (.condition .whereClause false (x.1.rename ρ))
      (x.2.rename ρ))
    (returns : renderReturning c.dialect q.returning = .ok returning) :
    Renders c (.query (q.rename ρ))
      (Sql.rename ρ (q.deleteText output (filter.map Prod.snd) returning)) := by
  have made := Renders.delete (q := q.rename ρ) (by simpa using operation)
    (by rwa [Query.checkClauses_rename])
    (by simpa [renderOutput_rename] using Except.map_eq_of_ok outputs (Sql.rename ρ))
    (by rw [Query.filter_rename, filterGiven, optionMap_fst_map])
    (forall_mem_optionMap (Condition.rename ρ) (Sql.rename ρ) filters)
    (by simpa [renderReturning_rename] using Except.map_eq_of_ok returns (Sql.rename ρ))
  rw [optionMap_snd_map] at made
  simpa [Query.deleteText] using made

end Cases

/-- New names whose columns are ordered as the old ones change nothing but the names. -/
theorem Renders.rename (ρ : Renaming) {c : Context} {n : Node} {s : Sql} (made : Renders c n s)
    (keeps : ρ.KeepsOrder n.part.occurrences) : Renders c (n.rename ρ) (s.rename ρ) := by
  -- each rule applies again to what it was applied to, under the new names
  induction made with
  | field columned => exact .field (Field.renamed ρ columned)
  | aggregate columned =>
    have made := Renders.aggregate (aggregateField_renamed ρ columned)
    simpa [Node.rename, Expr.rename] using made
  | filtered columned native _ ih =>
    have made := Renders.filtered (aggregateField_renamed ρ columned) native
      (ih (keeps.below (by simp [Node.part, Part.parts, Expr.parts])))
    simpa [Node.rename, Expr.rename] using made
  | chosen columned rewritten _ ih =>
    have made := Renders.chosen (aggregateField_renamed ρ columned) rewritten
      (ih (keeps.below (by simp [Node.part, Part.parts, Expr.parts])))
    simpa [Node.rename, Expr.rename] using made
  | @case c whens branched _ ih =>
    have each : ∀ w ∈ whens.map (Prod.map (WhenClause.rename ρ) (Sql.rename ρ)),
        Renders c (.whenClause w.1) w.2 := forall_mem_listMap _ _ (forall_of_listed rfl
      (fun w member => keeps.below (List.mem_map_of_mem member)) ih)
    have made := Renders.case (by simpa using branched) each
    rw [map_fst_map, map_snd_map] at made
    simpa [Node.rename, Expr.rename] using made
  | @caseElse c whens otherwise branched _ styled ih =>
    have each : ∀ w ∈ whens.map (Prod.map (WhenClause.rename ρ) (Sql.rename ρ)),
        Renders c (.whenClause w.1) w.2 := forall_mem_listMap _ _ (forall_of_listed rfl
      (fun w member => keeps.below (List.mem_map_of_mem member)) ih)
    have made : Renders c (.expr (.case ⟨_, some otherwise⟩)) _ :=
      .caseElse (by simpa using branched) each styled
    rw [map_fst_map, map_snd_map] at made
    simpa [Node.rename, Expr.rename] using made
  | @coalesce c operands several rendered =>
    have each := forall_mem_listMap (P := fun x => (x.1.render c).result = .ok x.2)
      (Operand.rename ρ) (Sql.rename ρ)
      fun x member => Operand.render_rename ρ (rendered x member)
    have made := Renders.coalesce (by simpa using several) each
    rw [map_fst_map, map_snd_map] at made
    simpa [Node.rename, Expr.rename] using made
  | nullIf first second =>
    have made := Renders.nullIf (Operand.render_rename ρ first) (Operand.render_rename ρ second)
    simpa [Node.rename, Expr.rename] using made
  | @math c call column columned argument =>
    have made : Renders c (.expr (.math (call.rename ρ))) _ :=
      .math (Field.renamed ρ columned) argument
    simpa [Node.rename, Expr.rename, MathCall.rename] using made
  | @mathWith c call column p columned argument styled =>
    have made : Renders c (.expr (.math (call.rename ρ))) _ :=
      .mathWith (Field.renamed ρ columned) argument styled
    simpa [Node.rename, Expr.rename, MathCall.rename] using made
  | cast columned typed =>
    have made := Renders.cast (Field.renamed ρ columned) typed
    simpa [Node.rename, Expr.rename] using made
  | @window c w call partitioned framed items called partition listed _ frame ih =>
    exact rename_window ρ called partition listed
      (forall_of_listed listed (fun o member => keeps.below (by
        simp [Node.part, Part.parts, Expr.parts, member])) ih) frame
  | binary columned styled joined =>
    have made := rename_binary ρ _ _ _ joined
    rw [Context.rename_placeholder] at made
    exact .binary (Field.renamed ρ columned) styled made
  | projected _ ih => exact .projected (ih (keeps.below (by simp [Node.part, Part.parts])))
  | @aliased c e text output _ ih =>
    have made : Renders c (.projected ⟨_, some (output.rename ρ)⟩) _ :=
      .aliased (ih (keeps.below (by simp [Node.part, Part.parts])))
    simpa [Node.rename, FieldExpr.rename, Renaming.apply, Alias.rename] using made
  | @ordered c e text direction _ ih =>
    have made : Renders c (.ordered ⟨_, direction, none⟩) _ := .ordered (ih keeps)
    simpa [Node.rename, OrderBy.rename] using made
  | @orderedNulls c e text direction nulls _ supported ih =>
    have made : Renders c (.ordered ⟨_, direction, some nulls⟩) _ :=
      .orderedNulls (ih keeps) supported
    simpa [Node.rename, OrderBy.rename] using made
  | @whenClause c x text result _ styled ih =>
    have made : Renders c (.whenClause ⟨_, result⟩) _ := .whenClause (ih keeps) styled
    simpa [Node.rename, WhenClause.rename] using made
  | @null c scope nested f op column columned unary =>
    have made : Renders c (.condition scope nested (.simple (f.rename ρ) op none)) _ :=
      .null (Field.renamed ρ columned) unary
    simpa [Node.rename, Condition.rename] using made
  | @simple c scope nested f op p column columned binary takes styled =>
    have made : Renders c (.condition scope nested (.simple (f.rename ρ) op (some p))) _ :=
      .simple (Field.renamed ρ columned) binary takes styled
    simpa [Node.rename, Condition.rename] using made
  | @only c scope nested op x text _ ih =>
    have made : Renders c (.condition scope nested (.group op [_])) _ :=
      .only (ih (keeps.below (by simp [Node.part, Part.parts, Condition.parts])))
    simpa [Node.rename, Condition.rename] using made
  | @group c scope nested op items several _ ih =>
    have each : ∀ x ∈ items.map (Prod.map (Condition.rename ρ) (Sql.rename ρ)),
        Renders c (.condition scope true x.1) x.2 := forall_mem_listMap _ _ (forall_of_listed rfl
      (fun x member => keeps.below (List.mem_map_of_mem member)) ih)
    have made : Renders c (.condition scope nested (.group op _)) _ :=
      .group (by simpa using several) each
    rw [map_fst_map, map_snd_map] at made
    cases nested <;> simpa [Node.rename, Condition.rename] using made
  | @fieldComparison c scope nested left op right l r comparing first second =>
    have made : Renders c (.condition scope nested
        (.fieldComparison (left.rename ρ) op (right.rename ρ))) _ :=
      .fieldComparison comparing (Field.renamed ρ first) (Field.renamed ρ second)
    simpa [Node.rename, Condition.rename] using made
  | @subquery c scope nested f op q left child text started reading entered _ ih =>
    have started' : subqueryLeft c (f.map (Field.rename ρ)) op = .ok (left.rename ρ) := by
      rw [subqueryLeft_rename, started]
      rfl
    have made : Renders c (.condition scope nested _) _ :=
      .subquery started' (by rwa [Query.operation_rename]) entered
        (ih (keeps.below (by simp [Node.part, Part.parts, Condition.parts])))
    simpa [Node.rename, Condition.rename] using made
  | @between c scope nested f low high negated column columned styled =>
    have made : Renders c (.condition scope nested (.between (f.rename ρ) low high negated)) _ :=
      .between (Field.renamed ρ columned) styled
    simpa [Node.rename, Condition.rename] using made
  | @aggregateCondition c nested kind f op p column comparing columned styled =>
    have made : Renders c (.condition .having nested
        (.aggregate kind (f.map (Field.rename ρ)) op p)) _ :=
      .aggregateCondition comparing (aggregateField_renamed ρ columned) styled
    simpa [Node.rename, Condition.rename] using made
  | @expression c scope nested e op p left comparing placed _ styled ih =>
    have made : Renders c (.condition scope nested (.expression (e.rename ρ) op p)) _ :=
      .expression comparing (by rwa [Expr.isAggregate_rename]) (ih (keeps.below List.mem_cons_self))
        styled
    simpa [Node.rename, Condition.rename] using made
  | @crossJoin c kind table formed supported =>
    have made : Renders c (.join ⟨kind, table.rename ρ, none⟩) _ := .crossJoin formed supported
    simpa [Node.rename, Join.rename] using made
  | @join c kind table on text formed supported _ ih =>
    have made : Renders c (.join ⟨kind, table.rename ρ, some (on.rename ρ)⟩) _ :=
      .join formed supported (ih (keeps.below (by simp [Node.part, Part.parts])))
    simpa [Node.rename, Join.rename] using made
  | assignedParam styled => exact .assignedParam styled
  | @assignedExpr c e text admitted _ ih =>
    exact .assignedExpr (by rwa [Expr.checkAssigned_rename]) (ih keeps)
  | @select c q _ _ _ fields joins filter having items operation clauses rules distinctly
      fieldsListed _ locks joinsListed _ filterGiven _ groups havingGiven _ itemsListed _ projects
      joined filters havings order =>
    have below := Query.keepsOrder keeps
    exact rename_select ρ operation clauses rules distinctly
      fieldsListed (forall_of_listed fieldsListed below.fields projects) locks
      joinsListed (forall_of_listed joinsListed below.joins joined)
      filterGiven (forall_of_given filterGiven below.filter filters) groups
      havingGiven (forall_of_given havingGiven below.having havings)
      itemsListed (forall_of_listed itemsListed below.orderBy order)
  | @count c q joins filter operation clauses joinsListed _ filterGiven _ joined filters =>
    have below := Query.keepsOrder keeps
    exact rename_count ρ operation clauses
      joinsListed (forall_of_listed joinsListed below.joins joined)
      filterGiven (forall_of_given filterGiven below.filter filters)
  | insert operation clauses shaped styled outputs upserts returns =>
    exact rename_insert ρ (Query.keepsOrder keeps) operation clauses shaped styled outputs upserts
      returns
  | @update c q _ _ sets filter operation clauses assigned setsListed _ plain unrepeated outputs
      filterGiven _ returns values filters =>
    have below := Query.keepsOrder keeps
    exact rename_update ρ below operation clauses assigned setsListed
      (forall_of_listed setsListed below.value values) plain unrepeated outputs
      filterGiven (forall_of_given filterGiven below.filter filters) returns
  | @delete c q _ _ filter operation clauses outputs filterGiven _ returns filters =>
    have below := Query.keepsOrder keeps
    exact rename_delete ρ operation clauses outputs
      filterGiven (forall_of_given filterGiven below.filter filters) returns

theorem Statement.Renders.rename {ρ : Renaming} {c : Context} {statement : Statement} {s : Sql}
    (made : statement.Renders c s) (keeps : ρ.KeepsOrder statement.occurrences) :
    (statement.rename ρ).Renders c (s.rename ρ) := by
  cases made with
  | query made => exact .query (made.rename ρ keeps)
  | @compound q base parts items several operands first partsListed supported more itemsListed
      order =>
    have below {p : Part} (member : p ∈ (Part.compound q).parts) : ρ.KeepsOrder p.occurrences :=
      Renaming.KeepsOrder.below (p := .compound q) keeps member
    have further : ∀ p ∈ parts, TypedSql.Renders c (.query (p.1.query.rename ρ)) (p.2.rename ρ) :=
      forall_of_listed partsListed
        (fun part member => below (p := .query part.query)
          (List.mem_append_left _ (List.mem_cons_of_mem _ (List.mem_map_of_mem member))))
        fun p member => (more p member).rename ρ
    have sorted : ∀ o ∈ items, TypedSql.Renders c (.ordered (o.1.rename ρ)) (o.2.rename ρ) :=
      forall_of_listed itemsListed
        (fun o member => below (p := .ordered o) (by simp [Part.parts, member]))
        fun o member => (order o member).rename ρ
    have listed : (q.rename ρ).operands = q.operands.map (Query.rename ρ) := by
      simp [CompoundQuery.operands, CompoundQuery.rename, CompoundPart.rename, Function.comp_def]
    have made := Statement.Renders.compound (q := q.rename ρ)
      (by simpa [CompoundQuery.rename] using several)
      (by rw [listed, checkOperands_rename, operands]) (first.rename ρ (below List.mem_cons_self))
      (by rw [CompoundQuery.rename, partsListed, map_fst_map])
      (forall_mem_listMap (CompoundPart.rename ρ) (Sql.rename ρ) supported)
      (forall_mem_listMap (CompoundPart.rename ρ) (Sql.rename ρ) further)
      (by rw [CompoundQuery.rename, itemsListed, map_fst_map])
      (forall_mem_listMap (OrderBy.rename ρ) (Sql.rename ρ) sorted)
    have operands : (parts.map (Prod.map (CompoundPart.rename ρ) (Sql.rename ρ))).map
        furtherOperand = (parts.map furtherOperand).map (Sql.rename ρ) := by
      simp [furtherOperand, CompoundPart.rename]
    rw [operands, map_snd_map] at made
    simpa [Statement.rename, CompoundQuery.rename] using made

end TypedSql
