import TypedSql.Proofs.Render.Statement
import TypedSql.Proofs.Sql.Rename

namespace TypedSql

theorem Except.map_eq_of_ok {ε α β : Type} {x : Except ε α} {a : α} (success : x = .ok a)
    (f : α → β) : x.map f = .ok (f a) := success ▸ rfl

theorem Except.mapM_map_of_each {ε α β γ δ : Type} {f : α → Except ε β} {f' : γ → Except ε δ}
    {a : α → γ} {b : β → δ} (each : ∀ x, f' (a x) = (f x).map b) (xs : List α) :
    (xs.map a).mapM f' = (xs.mapM f).map (List.map b) := by
  induction xs with
  | nil => rfl
  | cons x rest ih =>
    simp only [List.map_cons, List.mapM_cons, each, ih]
    cases f x <;> simp only [Except.map, bind, Except.bind]
    cases rest.mapM f <;> rfl

theorem findIdx?_congr_of_mem {α : Type} {f g : α → Bool} {xs : List α}
    (same : ∀ x ∈ xs, f x = g x) : xs.findIdx? f = xs.findIdx? g := by
  induction xs with
  | nil => rfl
  | cons x rest ih =>
    obtain ⟨first, others⟩ := List.forall_mem_cons.mp same
    rw [List.findIdx?_cons, List.findIdx?_cons, first, ih others]

section Entries
variable {α : Type} {ρ : Renaming} {m : NameMap α}
  (keeps : ρ.KeepsOrder (m.names.map fun n => (.field, n)))
include keeps

theorem NameMap.entries_rename :
    (m.rename ρ).entries = m.entries.map fun e => (ρ.column e.1, e.2) := by
  have ascending : (m.entries.map fun e => (ρ.column e.1, e.2)).Pairwise fun a b => a.1 < b.1 := by
    refine List.pairwise_map.mpr (m.ascending.imp_of_mem fun first second before => ?_)
    exact keeps _ _ (List.mem_map_of_mem (List.mem_map_of_mem first))
      (List.mem_map_of_mem (List.mem_map_of_mem second)) before
  exact NameMap.entries_insertAll _ .empty ascending

theorem NameMap.names_rename : (m.rename ρ).names = m.names.map ρ.column := by
  simp [NameMap.names, NameMap.entries_rename keeps, Function.comp_def]

theorem NameMap.values_rename : (m.rename ρ).values = m.values := by
  simp [NameMap.values, NameMap.entries_rename keeps, Function.comp_def]

theorem NameMap.isEmpty_rename : (m.rename ρ).isEmpty = m.isEmpty := by
  simp [NameMap.isEmpty, NameMap.entries_rename keeps]

end Entries

@[simp] theorem Field.isPlain_rename (ρ : Renaming) (f : Field) :
    (f.rename ρ).isPlain = f.isPlain := by
  simp [Field.isPlain, Field.rename]

section Clauses
variable (ρ : Renaming) (d : Dialect)

theorem Field.render_rename (f : Field) :
    (f.rename ρ).render d = (f.render d).map (Sql.rename ρ) := by
  have path : (f.rename ρ).path = f.path := rfl
  rw [Field.render_eq, Field.render_eq, path, Field.column_rename]
  cases walked : d.pathSteps f.path with
  | error e => rfl
  | ok steps =>
    have nameless : steps.names = [] := filterMap_pathSteps walked
    simp [Except.map, Sql.rename_of_nameless ρ nameless]

theorem renderFields_rename (fields : List Field) :
    renderFields (fields.map (Field.rename ρ)) d = (renderFields fields d).map (Sql.rename ρ) := by
  rw [renderFields, renderFields, Except.mapM_map_of_each (Field.render_rename ρ d)]
  cases fields.mapM (Field.render · d) <;> simp [Except.map]

theorem Operand.render_rename {x : Operand} {c : Context} {s : Sql}
    (made : (x.render c).result = .ok s) : ((x.rename ρ).render c).result = .ok (s.rename ρ) := by
  cases x with
  | field f =>
    have columned : f.render c.dialect = .ok s := made
    simp only [Operand.rename, Operand.render, Render.result_ofExcept, Field.render_rename,
      columned, Except.map]
  | param p =>
    obtain ⟨styled, rfl⟩ := Context.param_ok_iff.mp made
    exact Context.param_ok_iff.mpr ⟨styled, rfl⟩

theorem aggregateField_rename (kind : AggregateKind) (f : Option Field) (missing : Missing) :
    aggregateField d kind (f.map (Field.rename ρ)) missing =
      (aggregateField d kind f missing).map (Option.map (Sql.rename ρ)) := by
  cases f with
  | none => cases kind <;> rfl
  | some f =>
    simp only [Option.map_some, aggregateField, Field.render_rename]
    cases f.render d <;> rfl

theorem subqueryLeft_rename (c : Context) (f : Option Field) (op : Operator) :
    subqueryLeft c (f.map (Field.rename ρ)) op = (subqueryLeft c f op).map (Sql.rename ρ) := by
  cases f with
  | none => cases op <;> rfl
  | some f =>
    unfold subqueryLeft
    cases op.isExistence
    · simp only [Option.map_some, Field.render_rename]
      split
      · cases f.render c.dialect <;> simp [Except.map]
      · rfl
    · rfl

theorem renderDistinct_rename (distinct : Bool) (on : List Field) :
    renderDistinct d distinct (on.map (Field.rename ρ)) =
      (renderDistinct d distinct on).map (Sql.rename ρ) := by
  simp only [renderDistinct, renderFields_rename, List.isEmpty_map]
  split
  · rfl
  · split
    · rfl
    · cases d.require .distinctOn <;> cases renderFields on d <;>
        simp [bind, Except.bind, Except.map, pure, Except.pure]

theorem renderGroupBy_rename (groupBy : List Field) :
    renderGroupBy d (groupBy.map (Field.rename ρ)) =
      (renderGroupBy d groupBy).map (Sql.rename ρ) := by
  simp only [renderGroupBy, renderFields_rename, List.isEmpty_map]
  split
  · rfl
  · cases renderFields groupBy d <;> simp [bind, Except.bind, Except.map, pure, Except.pure]

theorem renderOutput_rename (source : OutputSource) (returning : List Field) :
    renderOutput d source (returning.map (Field.rename ρ)) =
      (renderOutput d source returning).map (Sql.rename ρ) := by
  have each : ∀ f, renderOutputColumn d source (f.rename ρ) =
      (renderOutputColumn d source f).map (Sql.rename ρ) := by
    intro f
    simp only [renderOutputColumn, Field.isPlain_rename]
    split <;> rfl
  simp only [renderOutput, List.isEmpty_map, Except.mapM_map_of_each each]
  split
  · rfl
  · cases returning.mapM (renderOutputColumn d source) <;> simp [Except.map]

theorem renderReturning_rename (returning : List Field) :
    renderReturning d (returning.map (Field.rename ρ)) =
      (renderReturning d returning).map (Sql.rename ρ) := by
  simp only [renderReturning, renderFields_rename, List.isEmpty_map]
  split
  · rfl
  · cases d.returningStyle <;> cases renderFields returning d <;> simp [Except.map]

theorem renderTarget_rename (target : List Field) :
    renderTarget (target.map (Field.rename ρ)) = (renderTarget target).map (Sql.rename ρ) := by
  have each : ∀ f, renderTargetColumn (Field.rename ρ f) =
      (renderTargetColumn f).map (Sql.rename ρ) := by
    intro f
    simp only [renderTargetColumn, Field.isPlain_rename]
    split <;> rfl
  simp only [renderTarget, List.isEmpty_map, Except.mapM_map_of_each each]
  split
  · rfl
  · cases target.mapM renderTargetColumn <;> simp [Except.map]

theorem WindowCall.partitionParts_rename (partitionBy : List Field) :
    WindowCall.partitionParts d (partitionBy.map (Field.rename ρ)) =
      (WindowCall.partitionParts d partitionBy).map (List.map (Sql.rename ρ)) := by
  simp only [WindowCall.partitionParts, renderFields_rename, List.isEmpty_map]
  split
  · rfl
  · cases renderFields partitionBy d <;> simp [Except.map]

end Clauses

section Rows
variable {ρ : Renaming}

theorem Row.sameColumns_rename {a b : Row} (keeps : ρ.KeepsOrder (a.occurrences ++ b.occurrences)) :
    Row.sameColumns (a.rename ρ) (b.rename ρ) = Row.sameColumns a b := by
  have first : (a.rename ρ).names = a.names.map ρ.column :=
    NameMap.names_rename (keeps.mono (List.subset_append_left _ _))
  have second : (b.rename ρ).names = b.names.map ρ.column :=
    NameMap.names_rename (keeps.mono (List.subset_append_right _ _))
  have column {n : String} (named : n ∈ a.names ∨ n ∈ b.names) :
      (.field, n) ∈ a.occurrences ++ b.occurrences :=
    List.mem_append.mpr (named.imp List.mem_map_of_mem List.mem_map_of_mem)
  have same : a.names.map ρ.column = b.names.map ρ.column ↔ a.names = b.names := by
    refine ⟨fun equal => NameMap.names_ext fun n => ⟨fun member => ?_, fun member => ?_⟩,
      fun equal => equal ▸ rfl⟩
    · have moved : ρ.column n ∈ b.names.map ρ.column := equal ▸ List.mem_map_of_mem member
      obtain ⟨other, inside, met⟩ := List.mem_map.mp moved
      rwa [← (keeps.inj (column (.inr inside)) (column (.inl member))).mp met]
    · have moved : ρ.column n ∈ a.names.map ρ.column := equal ▸ List.mem_map_of_mem member
      obtain ⟨other, inside, met⟩ := List.mem_map.mp moved
      rwa [← (keeps.inj (column (.inl inside)) (column (.inr member))).mp met]
  simp only [Row.sameColumns, first, second]
  rw [Bool.eq_iff_iff, beq_iff_eq, beq_iff_eq, same]

theorem checkRows_rename {rows : List Row} (keeps : ρ.KeepsOrder (rows.flatMap Row.occurrences)) :
    checkRows (rows.map (NameMap.rename ρ)) = (checkRows rows).map (NameMap.rename ρ) := by
  cases rows with
  | nil => rfl
  | cons first rest =>
    have inside {row : Row} (member : row ∈ first :: rest) :
        row.occurrences ⊆ (first :: rest).flatMap Row.occurrences :=
      fun o found => List.mem_flatMap.mpr ⟨row, member, found⟩
    have shapes : ((first :: rest).map (NameMap.rename ρ)).findIdx?
        (fun row => !Row.sameColumns row (first.rename ρ)) =
          (first :: rest).findIdx? fun row => !row.sameColumns first := by
      rw [List.findIdx?_map]
      refine findIdx?_congr_of_mem fun row member => congrArg _ (Row.sameColumns_rename ?_)
      exact keeps.mono (List.append_subset.mpr ⟨inside member, inside List.mem_cons_self⟩)
    have full : (first.rename ρ).isEmpty = first.isEmpty :=
      NameMap.isEmpty_rename (keeps.mono (inside List.mem_cons_self))
    simp only [List.map_cons] at shapes
    simp only [List.map_cons, checkRows, full, shapes]
    split
    · rfl
    · cases (first :: rest).findIdx? _ <;> rfl

theorem tuple_rename (c : Context) {row : Row} (keeps : ρ.KeepsOrder row.occurrences) :
    tuple c (row.rename ρ) = tuple c row := by
  rw [tuple, tuple, NameMap.values_rename keeps]

theorem rename_tuple (c : Context) (row : Row) : (tuple c row).rename ρ = tuple c row := by
  simp [tuple, Function.comp_def]

theorem insertKeyword_rename (ρ : Renaming) (d : Dialect) (conflict : Option OnConflict) :
    insertKeyword d (conflict.map (OnConflict.rename ρ)) = insertKeyword d conflict := by
  rcases conflict with _ | ⟨target, _ | _⟩ <;> cases d <;> rfl

section Updates
variable {updates : NameMap ConflictValue}
  (keeps : ρ.KeepsOrder (updates.names.map fun n => (.field, n)))
include keeps

theorem conflictSets_rename (c : Context) {rejected : String → Sql}
    (renamed : ∀ n, rejected (ρ.column n) = (rejected n).rename ρ) :
    conflictSets c rejected (updates.rename ρ) = (conflictSets c rejected updates).rename ρ := by
  have each : ∀ u : String × ConflictValue,
      conflictSetSql c rejected (ρ.column u.1, u.2) = (conflictSetSql c rejected u).rename ρ := by
    rintro ⟨n, value⟩
    cases value with
    | param p => rfl
    | excluded => simp [conflictSetSql, renamed, Renaming.apply]
  simp [conflictSets, NameMap.entries_rename keeps, Function.comp_def, each]

theorem styled_rename {c : Context} (styled : ∀ u ∈ updates.entries, u.2.Styled c) :
    ∀ u ∈ (updates.rename ρ).entries, u.2.Styled c := by
  rw [NameMap.entries_rename keeps]
  exact List.forall_mem_map.mpr styled

end Updates

theorem Upserts.rename {c : Context} {conflict : Option OnConflict} {s : Sql}
    (keeps : ρ.KeepsOrder (conflict.elim [] OnConflict.occurrences))
    (upserts : Upserts c conflict s) :
    Upserts c (conflict.map (OnConflict.rename ρ)) (s.rename ρ) := by
  have target {fields : List Field} {columns : Sql} (written : renderTarget fields = .ok columns) :
      renderTarget (fields.map (Field.rename ρ)) = .ok (columns.rename ρ) := by
    rw [renderTarget_rename, written]
    rfl
  cases upserts with
  | none => exact .none
  | skip targeted written =>
    have made := Upserts.skip targeted (target written)
    simpa [OnConflict.rename, ConflictAction.rename] using made
  | @update fields columns updates targeted written aimed full styled =>
    have keeps : ρ.KeepsOrder (updates.names.map fun n => (.field, n)) :=
      keeps.mono (List.subset_append_right _ _)
    have made := Upserts.update targeted (target written) (by simpa using aimed)
      (by rwa [NameMap.isEmpty_rename keeps]) (styled_rename keeps styled)
    rw [conflictSets_rename keeps c fun _ => rfl] at made
    simpa [OnConflict.rename, ConflictAction.rename] using made
  | ignore keyed => exact .ignore keyed
  | @duplicate fields updates keyed full styled =>
    have keeps : ρ.KeepsOrder (updates.names.map fun n => (.field, n)) :=
      keeps.mono (List.subset_append_right _ _)
    have made : Upserts c (some ⟨fields.map (Field.rename ρ), .doUpdate (updates.rename ρ)⟩) _ :=
      .duplicate keyed (by rwa [NameMap.isEmpty_rename keeps]) (styled_rename keeps styled)
    rw [conflictSets_rename keeps c fun _ => rfl] at made
    simpa [OnConflict.rename, ConflictAction.rename] using made

end Rows

section Windows
variable (ρ : Renaming)

def WindowCall.rename (w : WindowCall) : WindowCall :=
  { w with
    field := w.field.map (Field.rename ρ)
    window :=
      { w.window with
        partitionBy := w.window.partitionBy.map (Field.rename ρ)
        orderBy := w.window.orderBy.map (OrderBy.rename ρ) } }

theorem Expr.rename_window (w : WindowCall) :
    (Expr.window w).rename ρ = .window (w.rename ρ) := by
  obtain ⟨function, f, bucket, offset, fallback, ⟨partitionBy, orderBy, frame⟩⟩ := w
  simp [Expr.rename, WindowCall.rename]

theorem WindowCall.rename_shifts (w : WindowCall) (c : Context) :
    (w.shifts c).map (Sql.rename ρ) = w.shifts c := by
  unfold WindowCall.shifts
  cases w.offset <;> cases w.fallback <;> rfl

theorem WindowCall.Calls.rename {c : Context} {w : WindowCall} {call : Sql}
    (calls : w.Calls c call) : (w.rename ρ).Calls c (call.rename ρ) := by
  have column {f : Field} {s : Sql} (columned : f.render c.dialect = .ok s) :
      (f.rename ρ).render c.dialect = .ok (s.rename ρ) := by
    rw [Field.render_rename, columned]
    rfl
  have shifts : (w.rename ρ).shifts c = w.shifts c := rfl
  have function : (w.rename ρ).function = w.function := rfl
  cases calls with
  | ranking checked ranks bare => exact .ranking checked ranks (by simp [WindowCall.rename, bare])
  | ntile checked tiles bare given styled =>
    have made := WindowCall.Calls.ntile (w := w.rename ρ) checked tiles
      (by simp [WindowCall.rename, bare]) given styled
    simpa using made
  | shift checked shifted given columned styled =>
    have made := WindowCall.Calls.shift (w := w.rename ρ) checked shifted
      (by simp [WindowCall.rename, given]) (column columned) (shifts ▸ styled)
    simpa [shifts, function, WindowCall.rename_shifts] using made
  | edge checked edged given columned =>
    have made := WindowCall.Calls.edge (w := w.rename ρ) checked edged
      (by simp [WindowCall.rename, given]) (column columned)
    simpa [function] using made
  | @aggregate kind inner checked aggregates columned =>
    have renamed : aggregateField c.dialect kind (w.rename ρ).field .windowAggregateField =
        .ok (inner.map (Sql.rename ρ)) := by
      rw [WindowCall.rename, aggregateField_rename, columned]
      rfl
    have made := WindowCall.Calls.aggregate (w := w.rename ρ) checked aggregates renamed
    cases inner <;> simpa using made

end Windows

section Assignments
variable {ρ : Renaming} {α β : Type}

theorem sortAssignments_rename (g : α → β) {assignments : List (Field × α)}
    (keeps : ρ.KeepsOrder (assignments.map fun a => (.field, a.1.name))) :
    sortAssignments (assignments.map (Prod.map (Field.rename ρ) g)) =
      (sortAssignments assignments).map (Prod.map (Field.rename ρ) g) := by
  refine (List.map_mergeSort ?_).symm
  intro a first b second
  exact decide_eq_decide.mpr
    (keeps.le (List.mem_map_of_mem first) (List.mem_map_of_mem second)).symm

theorem repeatedNeighbour?_rename (g : α → β) {assignments : List (Field × α)}
    (keeps : ρ.KeepsOrder (assignments.map fun a => (.field, a.1.name))) :
    repeatedNeighbour? (assignments.map (Prod.map (Field.rename ρ) g)) =
      (repeatedNeighbour? assignments).map ρ.column := by
  induction assignments with
  | nil => rfl
  | cons a rest ih =>
    cases rest with
    | nil => rfl
    | cons b rest =>
      have same : (a.1.rename ρ).name = (b.1.rename ρ).name ↔ a.1.name = b.1.name :=
        keeps.inj (by simp) (by simp)
      have others := ih (keeps.mono (List.subset_cons_self ..))
      simp only [List.map_cons, repeatedNeighbour?, Prod.map_fst] at others ⊢
      by_cases repeated : a.1.name = b.1.name
      · rw [if_pos (same.mpr repeated), if_pos repeated]
        rfl
      · rw [if_neg (mt same.mp repeated), if_neg repeated, others]

theorem rename_assignmentSql (a : Field × Sql) :
    (assignmentSql a).rename ρ = assignmentSql (Prod.map (Field.rename ρ) (Sql.rename ρ) a) := by
  simp only [assignmentSql, Sql.rename_append, Prod.map]
  rfl

end Assignments

section Checks
variable (ρ : Renaming)

theorem Clause.isPresent_rename (q : Query) (clause : Clause) :
    clause.isPresent (q.rename ρ) = clause.isPresent q := by
  cases clause <;> simp [Clause.isPresent, Table.rename]

theorem Query.checkClauses_rename (q : Query) : (q.rename ρ).checkClauses = q.checkClauses := by
  simp only [Query.checkClauses, Query.operation_rename, Clause.isPresent_rename]

theorem Query.checkSelect_rename (q : Query) : (q.rename ρ).checkSelect = q.checkSelect := by
  simp [Query.checkSelect]

theorem Query.operandFault?_rename (q : Query) :
    (q.rename ρ).operandFault? = q.operandFault? := by
  simp [Query.operandFault?]

theorem checkOperands_rename (index : Nat) (queries : List Query) :
    checkOperands index (queries.map (Query.rename ρ)) = checkOperands index queries := by
  induction queries generalizing index with
  | nil => rfl
  | cons q rest ih => simp only [List.map_cons, checkOperands, Query.operandFault?_rename, ih]

end Checks

section Parts
variable (ρ : Renaming) (parts : List Sql)

@[simp] theorem rename_projection :
    (projection parts).rename ρ = projection (parts.map (Sql.rename ρ)) := by
  cases parts <;> simp [projection]

@[simp] theorem rename_orderClause :
    (orderClause parts).rename ρ = orderClause (parts.map (Sql.rename ρ)) := by
  cases parts <;> simp [orderClause]

@[simp] theorem map_rename_windowOrder :
    (windowOrder parts).map (Sql.rename ρ) = windowOrder (parts.map (Sql.rename ρ)) := by
  cases parts <;> simp [windowOrder]

@[simp] theorem rename_conditional (keyword : String) (condition : Option Sql) :
    (conditional keyword condition).rename ρ =
      conditional keyword (condition.map (Sql.rename ρ)) := by
  cases condition <;> simp [conditional]

end Parts

end TypedSql
