import TypedSql.Proofs.Render.Derivation
import TypedSql.Proofs.Sql.View

namespace TypedSql

def Dialect.pathSteps (d : Dialect) : Option JsonPath → Except RenderError Sql
  | none => .ok []
  | some path =>
    if path.segments.isEmpty then .error (.missingOperand .pathSegment) else d.jsonAccess [] path

theorem Dialect.jsonAccess_eq (d : Dialect) (column : Sql) (path : JsonPath) :
    d.jsonAccess column path = (d.jsonAccess [] path).map (column ++ ·) := by
  unfold jsonAccess
  cases d.require .jsonPath <;> cases d <;>
    simp [bind, Except.bind, pure, Except.pure, Except.map]

theorem Field.render_eq (f : Field) (d : Dialect) :
    f.render d = (d.pathSteps f.path).map (f.column ++ ·) := by
  unfold Field.render Dialect.pathSteps
  cases f.path with
  | none => simp [Except.map]
  | some path =>
    by_cases empty : path.segments.isEmpty = true
    · simp [empty, Except.map]
    · simp only [empty, Bool.false_eq_true, ↓reduceIte]
      exact d.jsonAccess_eq f.column path

theorem Field.render_ok_iff {f : Field} {d : Dialect} {s : Sql} :
    f.render d = .ok s ↔ ∃ steps, d.pathSteps f.path = .ok steps ∧ f.column ++ steps = s := by
  rw [Field.render_eq, Except.map_eq_ok]

theorem Except.exists_pairs_of_mapM {ε α β : Type} {f : α → Except ε β} {xs : List α} {ys : List β}
    (success : xs.mapM f = .ok ys) :
    ∃ pairs : List (α × β), xs = pairs.map Prod.fst ∧ ys = pairs.map Prod.snd ∧
      ∀ p ∈ pairs, f p.1 = .ok p.2 :=
  exists_pairs (Except.mapM_eq_ok.mp success)

theorem Except.eq_map_of_mapM {ε α β : Type} {f : α → Except ε β} {g : α → β} {accepts : α → Prop}
    (each : ∀ x y, f x = .ok y → accepts x ∧ y = g x) {xs : List α} {ys : List β}
    (success : xs.mapM f = .ok ys) : (∀ x ∈ xs, accepts x) ∧ ys = xs.map g := by
  obtain ⟨pairs, rfl, rfl, made⟩ := Except.exists_pairs_of_mapM success
  constructor
  · intro x member
    obtain ⟨p, inside, rfl⟩ := List.mem_map.mp member
    exact (each _ _ (made p inside)).1
  · rw [List.map_map]
    exact List.map_congr_left fun p member => (each _ _ (made p member)).2

theorem Query.isPresent_eq_false {q : Query} (clauses : q.checkClauses = .ok ()) (clause : Clause)
    (outside : clause ∉ q.operation.clauses) : clause.isPresent q = false := by
  unfold Query.checkClauses at clauses
  split at clauses
  · cases clauses
  · rename_i none
    have each := List.find?_eq_none.mp none clause (by cases clause <;> decide)
    simpa [outside] using each

section Absent
variable {q : Query} (clauses : q.checkClauses = .ok ())
include clauses

theorem Query.reads_only (operation : q.operation = .select ∨ q.operation = .count) :
    q.rows = [] ∧ q.assignments = [] ∧ q.returning = [] ∧ q.onConflict = none := by
  have absent := q.isPresent_eq_false clauses
  rcases operation with operation | operation <;> rw [operation] at absent
  all_goals
    exact ⟨by simpa [Clause.isPresent] using absent .values (by decide),
      by simpa [Clause.isPresent] using absent .set (by decide),
      by simpa [Clause.isPresent] using absent .returning (by decide),
      by simpa [Clause.isPresent] using absent .onConflict (by decide)⟩

theorem Query.selects_nothing (operation : q.operation ≠ .select) :
    q.distinctOn = [] ∧ q.fields = [] ∧ q.groupBy = [] ∧ q.having = none ∧ q.orderBy = [] := by
  have absent := q.isPresent_eq_false clauses
  cases other : q.operation <;> rw [other] at absent operation
  case select => exact absurd rfl operation
  all_goals
    exact ⟨by simpa [Clause.isPresent] using absent .distinctOn (by decide),
      by simpa [Clause.isPresent] using absent .projection (by decide),
      by simpa [Clause.isPresent] using absent .groupBy (by decide),
      by simpa [Clause.isPresent] using absent .having (by decide),
      by simpa [Clause.isPresent] using absent .orderBy (by decide)⟩

theorem Query.joins_nothing (operation : q.operation ≠ .select) (other : q.operation ≠ .count) :
    q.joins = [] ∧ q.table.alias? = none := by
  have absent := q.isPresent_eq_false clauses
  cases writing : q.operation <;> rw [writing] at absent operation other
  case select => exact absurd rfl operation
  case count => exact absurd rfl other
  all_goals
    exact ⟨by simpa [Clause.isPresent] using absent .join (by decide),
      by simpa [Clause.isPresent] using absent .tableAlias (by decide)⟩

theorem Query.inserts_only (operation : q.operation = .insert) :
    q.filter = none ∧ q.assignments = [] := by
  have absent := q.isPresent_eq_false clauses
  rw [operation] at absent
  exact ⟨by simpa [Clause.isPresent] using absent .filter (by decide),
    by simpa [Clause.isPresent] using absent .set (by decide)⟩

theorem Query.inserts_nothing (operation : q.operation = .update ∨ q.operation = .delete) :
    q.rows = [] ∧ q.onConflict = none := by
  have absent := q.isPresent_eq_false clauses
  rcases operation with operation | operation <;> rw [operation] at absent
  all_goals
    exact ⟨by simpa [Clause.isPresent] using absent .values (by decide),
      by simpa [Clause.isPresent] using absent .onConflict (by decide)⟩

theorem Query.assigns_nothing (operation : q.operation = .delete) : q.assignments = [] := by
  have absent := q.isPresent_eq_false clauses
  rw [operation] at absent
  simpa [Clause.isPresent] using absent .set (by decide)

end Absent

theorem Query.distinct_of_checkSelect {q : Query} (rules : q.checkSelect = .ok ())
    (distinct : q.distinct = true) : q.distinctOn = [] := by
  unfold Query.checkSelect at rules
  split at rules
  · cases rules
  · rename_i exclusive
    simpa [distinct] using exclusive

section Clauses
variable {d : Dialect} {s : Sql}

theorem renderFields_ok {fields : List Field} (made : renderFields fields d = .ok s) :
    ∃ pairs : List (Field × Sql), fields = pairs.map Prod.fst ∧
      s = Sql.commaList (pairs.map Prod.snd) ∧ ∀ p ∈ pairs, p.1.render d = .ok p.2 := by
  obtain ⟨columns, listed, rfl⟩ := Except.map_eq_ok.mp made
  obtain ⟨pairs, rfl, rfl, each⟩ := Except.exists_pairs_of_mapM listed
  exact ⟨pairs, rfl, rfl, each⟩

theorem aggregateField_ok {kind : AggregateKind} {f : Option Field} {missing : Missing}
    {column : Option Sql} (made : aggregateField d kind f missing = .ok column) :
    (f = none ∧ column = none) ∨
      ∃ g rendered, f = some g ∧ column = some rendered ∧ g.render d = .ok rendered := by
  cases f with
  | none => cases kind <;> simp_all [aggregateField]
  | some g =>
    simp only [aggregateField, Except.map_eq_ok] at made
    obtain ⟨rendered, made, rfl⟩ := made
    exact .inr ⟨g, rendered, rfl, rfl, made⟩

theorem subqueryLeft_ok {c : Context} {f : Option Field} {op : Operator}
    (made : subqueryLeft c f op = .ok s) :
    (f = none ∧ op.isExistence = true ∧ s = sql (op.symbol ++ " ")) ∨
      ∃ g column, f = some g ∧ g.render c.dialect = .ok column ∧
        s = column ++ sql (" " ++ op.symbol ++ " ") := by
  unfold subqueryLeft at made
  split at made
  · simp at made
  · rename_i existence
    exact .inl ⟨rfl, existence, by simpa using made.symm⟩
  · rename_i g _
    split at made
    · obtain ⟨column, columned, rfl⟩ := Except.map_eq_ok.mp made
      exact .inr ⟨g, column, rfl, columned, rfl⟩
    · simp at made
  · simp at made

theorem renderDistinct_ok {distinct : Bool} {on : List Field}
    (made : renderDistinct d distinct on = .ok s) :
    (distinct = true ∧ s = sql "DISTINCT ") ∨ (distinct = false ∧ on = [] ∧ s = []) ∨
      (distinct = false ∧ on ≠ [] ∧ ∃ fields, renderFields on d = .ok fields ∧
        s = sql "DISTINCT ON (" ++ fields ++ sql ") ") := by
  unfold renderDistinct at made
  split at made
  · rename_i given
    exact .inl ⟨given, by simpa [pure, Except.pure] using made.symm⟩
  · rename_i plain
    have plain : distinct = false := by simpa using plain
    split at made
    · rename_i empty
      exact .inr (.inl ⟨plain, by simpa using empty, by simpa [pure, Except.pure] using made.symm⟩)
    · rename_i full
      simp only [Except.bind_eq_ok, pure, Except.pure, Except.ok.injEq] at made
      obtain ⟨_, _, fields, rendered, rfl⟩ := made
      exact .inr (.inr ⟨plain, by simpa using full, fields, rendered, rfl⟩)

theorem renderGroupBy_ok {groupBy : List Field} (made : renderGroupBy d groupBy = .ok s) :
    (groupBy = [] ∧ s = []) ∨ (groupBy ≠ [] ∧
      ∃ fields, renderFields groupBy d = .ok fields ∧ s = sql " GROUP BY " ++ fields) := by
  unfold renderGroupBy at made
  split at made
  · rename_i empty
    exact .inl ⟨by simpa using empty, by simpa [pure, Except.pure] using made.symm⟩
  · rename_i full
    simp only [Except.bind_eq_ok, pure, Except.pure, Except.ok.injEq] at made
    obtain ⟨fields, rendered, rfl⟩ := made
    exact .inr ⟨by simpa using full, fields, rendered, rfl⟩

theorem renderLock_ok {lock : Option RowLock} {written : Sql × Sql}
    (made : renderLock d lock = .ok written) :
    written = ([], []) ∨ ∃ l, lock = some l ∧
      (written = ([], sql (Dialect.lockSuffix l)) ∨
        written = (sql (" " ++ Dialect.lockHint l), [])) := by
  cases lock with
  | none => exact .inl (by simpa [renderLock, pure, Except.pure] using made.symm)
  | some l =>
    simp only [renderLock, Dialect.lockClause, Except.bind_eq_ok] at made
    obtain ⟨clause, ⟨_, _, spelled⟩, made⟩ := made
    refine .inr ⟨l, rfl, ?_⟩
    cases d <;> simp_all [pure, Except.pure] <;> subst spelled <;> simp_all

theorem renderOutput_ok {source : OutputSource} {returning : List Field}
    (made : renderOutput d source returning = .ok s) :
    ((returning = [] ∨ d.returningStyle ≠ .output) ∧ s = []) ∨
      (d.returningStyle = .output ∧ (∀ f ∈ returning, f.isPlain = true) ∧
        s = sql " OUTPUT " ++ Sql.commaList
          (returning.map fun f => [.text (source.keyword ++ "."), .name .field f.name])) := by
  unfold renderOutput at made
  split at made
  · rename_i nothing
    exact .inl ⟨by simpa using nothing, by simpa using made.symm⟩
  · rename_i reported
    obtain ⟨columns, each, rfl⟩ := Except.map_eq_ok.mp made
    have column : ∀ f t, renderOutputColumn d source f = .ok t → f.isPlain = true ∧
        t = [.text (source.keyword ++ "."), .name .field f.name] := by
      intro f t made
      unfold renderOutputColumn at made
      split at made <;> simp_all
    obtain ⟨plain, rfl⟩ := Except.eq_map_of_mapM column each
    exact .inr ⟨by simp at reported; exact reported.2, plain, rfl⟩

theorem renderReturning_ok {returning : List Field} (made : renderReturning d returning = .ok s) :
    (returning = [] ∧ s = []) ∨ (d.returningStyle = .output ∧ s = []) ∨
      (d.returningStyle = .returning ∧ returning ≠ [] ∧
        ∃ fields, renderFields returning d = .ok fields ∧ s = sql " RETURNING " ++ fields) := by
  unfold renderReturning at made
  split at made
  · rename_i empty
    exact .inl ⟨by simpa using empty, by simpa using made.symm⟩
  · rename_i full
    cases style : d.returningStyle <;> simp only [style] at made
    · obtain ⟨fields, rendered, rfl⟩ := Except.map_eq_ok.mp made
      exact .inr (.inr ⟨rfl, by simpa using full, fields, rendered, rfl⟩)
    · exact .inr (.inl ⟨rfl, by simpa using made.symm⟩)
    · simp at made

theorem renderTarget_ok {target : List Field} (made : renderTarget target = .ok s) :
    (target = [] ∧ s = []) ∨
      ((∀ f ∈ target, f.isPlain = true) ∧
        s = sql " (" ++ Sql.commaList (target.map fun f => [.name .field f.name]) ++ sql ")") := by
  unfold renderTarget at made
  split at made
  · rename_i empty
    exact .inl ⟨by simpa using empty, by simpa using made.symm⟩
  · obtain ⟨columns, each, rfl⟩ := Except.map_eq_ok.mp made
    have column : ∀ f t, renderTargetColumn f = .ok t → f.isPlain = true ∧
        t = [.name .field f.name] := by
      intro f t made
      unfold renderTargetColumn at made
      split at made <;> simp_all
    obtain ⟨plain, rfl⟩ := Except.eq_map_of_mapM column each
    exact .inr ⟨plain, rfl⟩

theorem WindowCall.partitionParts_ok {partitionBy : List Field} {parts : List Sql}
    (made : WindowCall.partitionParts d partitionBy = .ok parts) :
    (partitionBy = [] ∧ parts = []) ∨
      ∃ fields, renderFields partitionBy d = .ok fields ∧ parts = [sql "PARTITION BY " ++ fields] := by
  unfold WindowCall.partitionParts at made
  split at made
  · rename_i empty
    exact .inl ⟨by simpa using empty, by simpa using made.symm⟩
  · obtain ⟨fields, rendered, rfl⟩ := Except.map_eq_ok.mp made
    exact .inr ⟨fields, rendered, rfl⟩

def Frame.text (frame : Frame) : String :=
  match frame.stop with
  | none => frame.units.keyword ++ " " ++ frame.start.text
  | some stop => frame.units.keyword ++ " BETWEEN " ++ frame.start.text ++ " AND " ++ stop.text

theorem Frame.render_ok {frame : Frame} (made : frame.render = .ok s) : s = sql frame.text := by
  obtain ⟨units, start, stop⟩ := frame
  unfold Frame.render at made
  split at made
  · simp at made
  · cases stop <;> simp only at made
    · split at made <;> simp_all [Frame.text]
    · split at made
      · simp at made
      · split at made <;> simp_all [Frame.text]

theorem WindowCall.frameParts_ok {frame : Option Frame} {parts : List Sql}
    (made : WindowCall.frameParts frame = .ok parts) :
    parts = frame.toList.map fun f => sql f.text := by
  cases frame with
  | none => simpa [WindowCall.frameParts] using made.symm
  | some f =>
    obtain ⟨text, rendered, rfl⟩ := Except.map_eq_ok.mp made
    rw [Frame.render_ok rendered]
    rfl

theorem Dialect.castType_all (check : String → Bool)
    (each : ∀ (d : Dialect) type, (d.typeName? type).all check = true) {type : CastType}
    {name : String} (typed : d.castType type = .ok name) : check name = true := by
  unfold castType at typed
  split at typed
  · rename_i found
    cases typed
    simpa [found] using each d type
  · cases typed

theorem Dialect.pathSteps_all {P : Sql → Prop} {path : Option JsonPath} (nil : P [])
    (key : ∀ operator, operator = "->" ∨ operator = "->>" → ∀ l, P [.text operator, .literal l])
    (index : ∀ operator, operator = "->" ∨ operator = "->>" →
      ∀ n : Nat, P (sql (operator ++ toString n)))
    (append : ∀ first rest, P first → P rest → P (first ++ rest))
    (made : d.pathSteps path = .ok s) : P s := by
  have hop {operator : String} (hops : operator = "->" ∨ operator = "->>") (segment : PathSegment) :
      P (pathHop operator segment) := by
    cases segment with
    | key k => exact key operator hops k.name
    | index i => exact index operator hops i.toNat
  have hops (asText : Bool) (segments : List PathSegment) : P (pathHops asText segments) := by
    induction segments with
    | nil => exact nil
    | cons segment rest ih =>
      cases rest with
      | nil => exact hop (by cases asText <;> simp) segment
      | cons next rest => exact append _ _ (hop (.inl rfl) segment) ih
  cases path with
  | none =>
    simp only [pathSteps, Except.ok.injEq] at made
    exact made ▸ nil
  | some path =>
    simp only [pathSteps, jsonAccess] at made
    split at made
    · cases made
    · simp only [Except.bind_eq_ok, pure, Except.pure, Except.ok.injEq, List.nil_append] at made
      obtain ⟨_, _, rfl⟩ := made
      cases d with
      | mySql => exact key _ (by cases path.asText <;> simp) _
      | _ => exact hops path.asText path.segments

end Clauses

section Views
variable {α : Type} {view : Piece → Option α} [IsView view] {d : Dialect} {s : Sql}
omit [IsView view] in
theorem filterMap_plainColumn {f : Field} (bare : f.isPlain = true) :
    f.column.filterMap view = (view (.name .field f.name)).toList := by
  obtain ⟨name, qualifier, path⟩ := f
  cases qualifier <;> simp_all [Field.isPlain, Field.column]
  cases found : view (.name .field name) <;> simp [found]

@[simp] theorem filterMap_tableRender (t : Table) :
    t.render.filterMap view = (view (.name .table t.name)).toList := by
  unfold Table.render
  cases t.alias? <;> cases found : view (.name .table t.name) <;> simp [found]

theorem filterMap_pathSteps {path : Option JsonPath} {steps : Sql}
    (made : d.pathSteps path = .ok steps) : steps.filterMap view = [] := by
  refine Dialect.pathSteps_all (P := fun steps => steps.filterMap view = []) rfl ?_ ?_ ?_ made
  · simp
  · simp
  · intro first rest none none'
    rw [List.filterMap_append, none, none', List.nil_append]

theorem filterMap_field {f : Field} (made : f.render d = .ok s) :
    s.filterMap view = f.column.filterMap view := by
  obtain ⟨steps, walked, rfl⟩ := Field.render_ok_iff.mp made
  rw [List.filterMap_append, filterMap_pathSteps walked, List.append_nil]

theorem filterMap_fields {fields : List Field} (made : renderFields fields d = .ok s) :
    s.filterMap view = fields.flatMap fun f => f.column.filterMap view := by
  obtain ⟨pairs, rfl, rfl, each⟩ := renderFields_ok made
  rw [filterMap_commaList, List.flatMap_map, List.flatMap_map]
  exact List.flatMap_congr fun p member => filterMap_field (each p member)

theorem filterMap_aggregateField {kind : AggregateKind} {f : Option Field} {missing : Missing}
    {column : Option Sql} (made : aggregateField d kind f missing = .ok column) (t : String) :
    (column.getD (sql t)).filterMap view = f.toList.flatMap fun g => g.column.filterMap view := by
  rcases aggregateField_ok made with ⟨rfl, rfl⟩ | ⟨g, rendered, rfl, rfl, columned⟩
  · simp
  · simpa using filterMap_field columned

theorem filterMap_subqueryLeft {c : Context} {f : Option Field} {op : Operator}
    (made : subqueryLeft c f op = .ok s) :
    s.filterMap view = f.toList.flatMap fun g => g.column.filterMap view := by
  rcases subqueryLeft_ok made with ⟨rfl, -, rfl⟩ | ⟨g, column, rfl, columned, rfl⟩
  · simp
  · simpa using filterMap_field columned

theorem filterMap_distinct {distinct : Bool} {on : List Field}
    (exclusive : distinct = true → on = []) (made : renderDistinct d distinct on = .ok s) :
    s.filterMap view = on.flatMap fun f => f.column.filterMap view := by
  rcases renderDistinct_ok made with ⟨given, rfl⟩ | ⟨-, rfl, rfl⟩ | ⟨-, -, fields, rendered, rfl⟩
  · simp [exclusive given]
  · simp
  · simpa using filterMap_fields rendered

theorem filterMap_groupBy {groupBy : List Field} (made : renderGroupBy d groupBy = .ok s) :
    s.filterMap view = groupBy.flatMap fun f => f.column.filterMap view := by
  rcases renderGroupBy_ok made with ⟨rfl, rfl⟩ | ⟨-, fields, rendered, rfl⟩
  · simp
  · simpa using filterMap_fields rendered

theorem filterMap_partition {partitionBy : List Field} {parts : List Sql}
    (made : WindowCall.partitionParts d partitionBy = .ok parts) :
    parts.flatMap (List.filterMap view) = partitionBy.flatMap fun f => f.column.filterMap view := by
  rcases WindowCall.partitionParts_ok made with ⟨rfl, rfl⟩ | ⟨fields, rendered, rfl⟩
  · simp
  · simpa using filterMap_fields rendered

theorem filterMap_returning {returning : List Field} (made : renderReturning d returning = .ok s) :
    s.filterMap view =
      if d.returningStyle = .returning then returning.flatMap fun f => f.column.filterMap view
      else [] := by
  rcases renderReturning_ok made with ⟨rfl, rfl⟩ | ⟨style, rfl⟩ | ⟨style, -, fields, rendered, rfl⟩
  · simp
  · simp [style]
  · simpa [style] using filterMap_fields rendered

theorem filterMap_lock {lock : Option RowLock} {written : Sql × Sql}
    (made : renderLock d lock = .ok written) :
    written.1.filterMap view = [] ∧ written.2.filterMap view = [] := by
  rcases renderLock_ok made with rfl | ⟨l, -, rfl | rfl⟩ <;> simp

theorem filterMap_frame {frame : Option Frame} {parts : List Sql}
    (made : WindowCall.frameParts frame = .ok parts) :
    parts.flatMap (List.filterMap view) = [] := by
  rw [WindowCall.frameParts_ok made]
  cases frame <;> simp

theorem filterMap_output {source : OutputSource} {returning : List Field}
    (made : renderOutput d source returning = .ok s) :
    s.filterMap view =
      if d.returningStyle = .output then returning.flatMap fun f => f.column.filterMap view
      else [] := by
  rcases renderOutput_ok made with ⟨nothing, rfl⟩ | ⟨style, bare, rfl⟩
  · rcases nothing with rfl | style
    · simp
    · simp [style]
  · simp only [style, ↓reduceIte, List.filterMap_append, filterMap_sql, List.nil_append,
      filterMap_commaList, List.flatMap_map]
    refine List.flatMap_congr fun f member => ?_
    rw [filterMap_plainColumn (bare f member)]
    cases found : view (.name .field f.name) <;> simp [found]

theorem filterMap_target {target : List Field} (made : renderTarget target = .ok s) :
    s.filterMap view = target.flatMap fun f => f.column.filterMap view := by
  rcases renderTarget_ok made with ⟨rfl, rfl⟩ | ⟨bare, rfl⟩
  · simp
  · simp only [List.filterMap_append, filterMap_sql, List.nil_append, List.append_nil,
      filterMap_commaList, List.flatMap_map]
    refine List.flatMap_congr fun f member => ?_
    rw [filterMap_plainColumn (bare f member)]
    cases found : view (.name .field f.name) <;> simp [found]

end Views

end TypedSql
