import TypedSql.Proofs.Render.Statement
import TypedSql.Proofs.Sql.Phrase

namespace TypedSql

theorem TableAlias.toList_display (letter : TableAlias) :
    letter.display.toList = [letter.letter] := by
  simp [TableAlias.display]

theorem TableAlias.isWordRest_letter (letter : TableAlias) : isWordRest letter.letter = true := by
  have alpha : letter.letter.isAlpha = (letter.letter.isUpper || letter.letter.isLower) := rfl
  simp [isWordRest, Char.isAlphanum, alpha, letter.admitted]

theorem Even.letter (letter : TableAlias) : Even letter.display.toList :=
  .of_word (by simp [letter.toList_display, letter.isWordRest_letter])

section Fields
variable {d : Dialect} {s : Sql}

theorem Phrase.name (n : String) : Phrase [.name .field n] := Sql.Runs.name .field n

theorem Phrase.placeholder (c : Context) (p : Param) : Phrase (c.placeholder p) :=
  Sql.Runs.hole ⟨c.depth, p⟩ .field

theorem Table.runs_render (t : Table) : t.render.Runs (.ready .table) 0 .any 0 := by
  unfold Table.render
  cases t.alias? with
  | none => exact .name .table t.name
  | some letter =>
    exact Sql.Runs.append (.name .table t.name) (Tail.of_start (by decide) (.letter letter))

theorem settled_dot (c : Char) : settled [c, '.'] = true ∧ roleAfter [c, '.'] = .field := by
  constructor <;> simp [settled, roleAfter, nameSigns, List.isSuffixOf, List.isPrefixOf]

theorem Phrase.column (f : Field) : Phrase f.column := by
  obtain ⟨name, qualifier, path⟩ := f
  rcases qualifier with _ | table | letter
  · exact .name name
  · rintro _ n rfl
    exact ⟨.after, by simp [Stance.Holds], rfl⟩
  · have even : Even (letter.display ++ ".").toList := (Even.letter letter).concat (by decide)
    have spelled : (letter.display ++ ".").toList = [letter.letter, '.'] := by
      simp [letter.toList_display]
    refine Sql.Runs.append (Sql.Runs.text ?_) (.name .field name)
    rw [spelled] at even ⊢
    simp [fits, even.1, even.2, settled_dot]

theorem Tail.pathSteps {path : Option JsonPath} {steps : Sql} (made : d.pathSteps path = .ok steps) :
    Tail steps := by
  refine Dialect.pathSteps_all .nil (fun operator hops l => ?_) (fun operator hops n => ?_)
    (fun _ _ first rest => Sql.Runs.append first rest) made
  · have leads : fits .any operator.toList 0 (.ready .field) 0 = true := by
      rcases hops with rfl | rfl <;> decide
    exact (Sql.Runs.text leads).append (.literal l .field)
  · exact .of_start (by rcases hops with rfl | rfl <;> decide) (.number n)

theorem Phrase.field {f : Field} (made : f.render d = .ok s) : Phrase s := by
  obtain ⟨steps, walked, rfl⟩ := Field.render_ok_iff.mp made
  exact Phrase.followed (.column f) (.pathSteps walked)

theorem Phrase.fields {fields : List Field} (made : renderFields fields d = .ok s) : Phrase s := by
  obtain ⟨pairs, rfl, rfl, each⟩ := renderFields_ok made
  refine .commaList fun p member => ?_
  obtain ⟨pair, inside, rfl⟩ := List.mem_map.mp member
  exact .field (each pair inside)

theorem Phrase.names (names : List String) :
    Phrase (Sql.commaList (names.map fun n => [.name .field n])) := by
  refine .commaList fun p member => ?_
  obtain ⟨n, -, rfl⟩ := List.mem_map.mp member
  exact .name n

theorem Phrase.operand {c : Context} {o : Operand} (made : (o.render c).result = .ok s) :
    Phrase s := by
  cases o with
  | field f => exact .field made
  | param p =>
    obtain ⟨-, rfl⟩ := Context.param_ok_iff.mp made
    exact .placeholder c p

theorem Phrase.aggregateField {kind : AggregateKind} {f : Option Field} {missing : Missing}
    {column : Option Sql} (made : aggregateField d kind f missing = .ok column) {t : String}
    (fitting : fits (.ready .field) t.toList 0 .any 0 = true) : Phrase (column.getD (sql t)) := by
  rcases aggregateField_ok made with ⟨rfl, rfl⟩ | ⟨g, rendered, rfl, rfl, columned⟩
  · exact .text fitting
  · exact .field columned

end Fields

section Clauses
variable {d : Dialect} {s : Sql}

theorem Sql.Runs.distinct {distinct : Bool} {on : List Field}
    (made : renderDistinct d distinct on = .ok s) : s.Runs (.ready .field) 0 (.ready .field) 0 := by
  rcases renderDistinct_ok made with ⟨-, rfl⟩ | ⟨-, -, rfl⟩ | ⟨-, -, fields, rendered, rfl⟩
  · exact .text (by decide)
  · exact .nil
  · have opens : (sql "DISTINCT ON (").Runs (.ready .field) 0 (.ready .field) 1 :=
      .text (by decide)
    exact (opens.append ((Phrase.fields rendered).inside 1)).append (.text (by decide))

theorem Tail.groupBy {groupBy : List Field} (made : renderGroupBy d groupBy = .ok s) : Tail s := by
  rcases renderGroupBy_ok made with ⟨-, rfl⟩ | ⟨-, fields, rendered, rfl⟩
  · exact .nil
  · exact .led (by decide) (.fields rendered)

theorem Tail.lock {lock : Option RowLock} {written : Sql × Sql}
    (made : renderLock d lock = .ok written) : Tail written.1 ∧ Tail written.2 := by
  rcases renderLock_ok made with rfl | ⟨⟨strength, waiting⟩, -, rfl | rfl⟩
  · exact ⟨.nil, .nil⟩
  · exact ⟨.nil, .text (by cases strength <;> cases waiting <;> decide)⟩
  · exact ⟨.text (by cases strength <;> cases waiting <;> decide), .nil⟩

theorem Tail.output {source : OutputSource} {returning : List Field}
    (made : renderOutput d source returning = .ok s) : Tail s := by
  rcases renderOutput_ok made with ⟨-, rfl⟩ | ⟨-, -, rfl⟩
  · exact .nil
  · refine .led (by decide) (.commaList fun p member => ?_)
    obtain ⟨f, -, rfl⟩ := List.mem_map.mp member
    have leads : (sql (source.keyword ++ ".")).Runs (.ready .field) 0 (.ready .field) 0 :=
      .text (by cases source <;> decide)
    exact leads.append (Phrase.name f.name)

theorem Tail.returning {returning : List Field} (made : renderReturning d returning = .ok s) :
    Tail s := by
  rcases renderReturning_ok made with ⟨-, rfl⟩ | ⟨-, rfl⟩ | ⟨-, -, fields, rendered, rfl⟩
  · exact .nil
  · exact .nil
  · exact .led (by decide) (.fields rendered)

theorem Tail.target {target : List Field} (made : renderTarget target = .ok s) : Tail s := by
  rcases renderTarget_ok made with ⟨-, rfl⟩ | ⟨-, rfl⟩
  · exact .nil
  · have opens : (sql " (").Runs .any 0 (.ready .field) 1 := .text (by decide)
    have names := Phrase.names (target.map (·.name))
    rw [List.map_map] at names
    exact (opens.append (names.inside 1)).append (.text (by decide))

theorem Phrase.conflictSets (c : Context) {rejected : String → Sql}
    (valued : ∀ column, Phrase (rejected column)) (updates : NameMap ConflictValue) :
    Phrase (conflictSets c rejected updates) := by
  refine .commaList fun p member => ?_
  obtain ⟨⟨column, value⟩, -, rfl⟩ := List.mem_map.mp member
  have assigned : Sql.Runs (.ready .field) 0 [.name .field column, .text " = "] (.ready .field) 0 :=
    (Sql.Runs.name .field column).append (t := sql " = ") (.text (by decide))
  cases value with
  | param p => exact assigned.append (Phrase.placeholder c p)
  | excluded => exact assigned.append (valued column)

theorem Phrase.excludedColumn (column : String) : Phrase (excludedColumn column) := by
  have leads : (sql "EXCLUDED.").Runs (.ready .field) 0 (.ready .field) 0 := .text (by decide)
  exact leads.append (Phrase.name column)

theorem Phrase.valuesColumn (column : String) : Phrase (valuesColumn column) := by
  show Phrase (sql "VALUES(" ++ [Piece.name .field column] ++ sql ")")
  exact .enclosed (k := 1) (by decide) (by decide) (.name column)

theorem Upserts.tail {c : Context} {conflict : Option OnConflict} (upserts : Upserts c conflict s) :
    Tail s := by
  cases upserts with
  | none => exact .nil
  | ignore => exact .nil
  | skip targeted written =>
    have leads : Tail (sql " ON CONFLICT") := .text (by decide)
    exact (Sql.Runs.append leads (Tail.target written)).append (.text (by decide))
  | update targeted written =>
    have leads : Tail (sql " ON CONFLICT") := .text (by decide)
    exact ((Sql.Runs.append leads (Tail.target written)).append (.text (by decide))).append
      (Phrase.conflictSets c .excludedColumn _)
  | duplicate => exact .led (by decide) (.conflictSets c .valuesColumn _)

theorem Worded.partition {partitionBy : List Field} {parts : List Sql}
    (made : WindowCall.partitionParts d partitionBy = .ok parts) : ∀ p ∈ parts, Worded p := by
  rcases WindowCall.partitionParts_ok made with ⟨-, rfl⟩ | ⟨fields, rendered, rfl⟩
  · simp
  · have leads : (sql "PARTITION BY ").Runs .clear 0 (.ready .field) 0 := .text (by decide)
    exact List.forall_mem_singleton.mpr (leads.append (Phrase.fields rendered))

theorem Worded.windowOrder {parts : List Sql} (each : ∀ p ∈ parts, Phrase p) :
    ∀ p ∈ windowOrder parts, Worded p := by
  unfold TypedSql.windowOrder
  split
  · simp
  · have leads : (sql "ORDER BY ").Runs .clear 0 (.ready .field) 0 := .text (by decide)
    exact List.forall_mem_singleton.mpr (leads.append (Phrase.commaList each))

theorem Even.bound (bound : FrameBound) : Even bound.text.toList := by
  cases bound with
  | preceding n => exact (Even.number _).concat (by decide)
  | following n => exact (Even.number _).concat (by decide)
  | _ => decide

theorem Even.frame (frame : Frame) : Even frame.text.toList := by
  have units : Even frame.units.keyword.toList := by cases frame.units <;> decide
  unfold Frame.text
  cases frame.stop with
  | none => exact (units.concat (by decide)).concat (.bound _)
  | some stop =>
    exact (((units.concat (by decide)).concat (.bound _)).concat (by decide)).concat (.bound _)

theorem Worded.frame {frame : Option Frame} {parts : List Sql}
    (made : WindowCall.frameParts frame = .ok parts) : ∀ p ∈ parts, Worded p := by
  rw [WindowCall.frameParts_ok made]
  intro p member
  obtain ⟨f, -, rfl⟩ := List.mem_map.mp member
  refine .of_even (.frame f) ?_
  obtain ⟨units, start, stop⟩ := f
  cases units <;> cases stop <;> simp [Frame.text, FrameUnits.keyword, String.toList_append]

theorem Worded.window {partitionBy : List Field} {partitioned ordered framed : List Sql}
    {frame : Option Frame} (partition : WindowCall.partitionParts d partitionBy = .ok partitioned)
    (order : ∀ p ∈ ordered, Phrase p) (made : WindowCall.frameParts frame = .ok framed) :
    Worded (Sql.join " " (partitioned ++ TypedSql.windowOrder ordered ++ framed)) := by
  refine .join fun p member => ?_
  rcases List.mem_append.mp member with member | member
  · rcases List.mem_append.mp member with member | member
    · exact .partition partition p member
    · exact .windowOrder order p member
  · exact .frame made p member

theorem fits_limit : fits .any " LIMIT ".toList 0 .any 0 = true := by decide

theorem fits_offset : fits .any " OFFSET ".toList 0 .any 0 = true := by decide

theorem Tail.limitOffset {shown : String} (even : Even shown.toList) (n : Nat) :
    Tail (sql (" LIMIT " ++ shown ++ " OFFSET " ++ toString n)) := by
  rw [String.append_assoc, String.append_assoc]
  exact .of_start fits_limit (even.concat (Even.concat (by decide) (.number n)))

theorem Tail.withLimit {unlimited : String} (even : Even unlimited.toList)
    (limit offset : Option UInt64) :
    Tail (sql (Dialect.pagination.withLimit limit offset unlimited)) := by
  cases limit with
  | none =>
    cases offset with
    | none => exact .blank
    | some m => exact .limitOffset even _
  | some n =>
    cases offset with
    | none => exact .of_start fits_limit (.number _)
    | some m => exact .limitOffset (.number _) _

theorem Tail.fetch (limit : Option UInt64) (offset : Nat) (ordered : Bool) :
    Tail (sql ((if ordered then "" else " ORDER BY (SELECT NULL)") ++ " OFFSET " ++
      toString offset ++ " ROWS" ++
      limit.elim "" fun n => " FETCH NEXT " ++ toString n.toNat ++ " ROWS ONLY")) := by
  have fetched : Even (limit.elim "" fun n =>
      " FETCH NEXT " ++ toString n.toNat ++ " ROWS ONLY").toList := by
    cases limit with
    | none => decide
    | some n => exact (Even.concat (by decide) (.number _)).concat (by decide)
  rw [String.append_assoc, String.append_assoc]
  refine .of_start ?_ ((Even.number _).concat (Even.concat (by decide) fetched))
  cases ordered <;> decide

theorem Tail.pagination (d : Dialect) (limit offset : Option UInt64) (ordered : Bool) :
    Tail (sql (d.pagination limit offset ordered)) := by
  cases d with
  | postgres =>
    cases limit with
    | none =>
      cases offset with
      | none => exact .blank
      | some m =>
        simp only [Dialect.pagination, Option.elim, String.empty_append]
        exact .of_start fits_offset (.number _)
    | some n =>
      cases offset with
      | none =>
        simp only [Dialect.pagination, Option.elim, String.append_empty]
        exact .of_start fits_limit (.number _)
      | some m =>
        simp only [Dialect.pagination, Option.elim]
        rw [← String.append_assoc]
        exact .limitOffset (.number _) _
  | mySql =>
    have digits : "18446744073709551615".toList.all isWordRest = true := by decide
    exact .withLimit (.of_word (List.all_eq_true.mp digits)) limit offset
  | sqlite => exact .withLimit (by decide) limit offset
  | sqlServer =>
    simp only [Dialect.pagination]
    split
    · exact .blank
    · exact .fetch limit _ ordered

theorem Tail.conditional (keyword : String)
    (leads : fits .any (" " ++ keyword ++ " ").toList 0 (.ready .field) 0 = true)
    {condition : Option Sql} (inner : ∀ s ∈ condition, Phrase s) :
    Tail (conditional keyword condition) := by
  cases condition with
  | none => exact .nil
  | some s => exact .led leads (inner s rfl)

theorem Tail.orderClause {parts : List Sql} (each : ∀ p ∈ parts, Phrase p) :
    Tail (orderClause parts) := by
  unfold TypedSql.orderClause
  split
  · exact .nil
  · exact .led (by decide) (.commaList each)

theorem Phrase.projection {parts : List Sql} (each : ∀ p ∈ parts, Phrase p) :
    Phrase (projection parts) := by
  unfold TypedSql.projection
  split
  · exact .text (by decide)
  · exact .commaList each

end Clauses

section Expressions
variable {d : Dialect} {s left right : Sql}

theorem Phrase.compareSides (op : Operator) (first : Phrase left) (second : Phrase right) :
    Phrase (compareSides d left op right) := by
  cases op
  case isIn =>
    cases d
    case postgres => exact .linkedClosed (k := 1) (by decide) (by decide) first second
    all_goals exact .linkedClosed (k := 2) (by decide) (by decide) first second
  case notIn =>
    cases d
    case postgres => exact .linkedClosed (k := 1) (by decide) (by decide) first second
    case mySql =>
      exact .paired (k := 1) (l := 3) (by decide) (by decide) (by decide) first second
    all_goals exact .linkedClosed (k := 2) (by decide) (by decide) first second
  case iLike | notILike =>
    cases d
    case postgres => exact .linked (by decide) first second
    all_goals exact .paired (k := 1) (l := 1) (by decide) (by decide) (by decide) first second
  all_goals exact .linked (by decide) first second

theorem Phrase.binary {op : BinaryOp} (made : d.binary left op right = .ok s) (first : Phrase left)
    (second : Phrase right) : Phrase s := by
  rcases Dialect.binary_ok made with rfl | rfl | rfl
  · exact .paired (k := 1) (l := 1) (by decide) (by decide) (by decide)
      first second
  · exact .linked (by decide) first second
  · exact .linked (by cases op <;> decide) first second

theorem Phrase.call {name : String}
    (opens : fits (.ready .field) (name ++ "(").toList 0 (.ready .field) 1 = true)
    {argument : Option Sql} (first : Phrase left) (second : ∀ s ∈ argument, Phrase s) :
    Phrase (Dialect.call name left argument) := by
  cases argument with
  | none => exact .enclosed (k := 1) opens (by decide) first
  | some s =>
    exact .paired (k := 1) (l := 1) opens (by decide) (by decide) first (second s rfl)

theorem Phrase.mathCall (function : MathFunction) {argument : Option Sql} (first : Phrase left)
    (second : ∀ s ∈ argument, Phrase s) : Phrase (d.mathCall function left argument) := by
  unfold Dialect.mathCall
  split
  · exact .call (by decide) first (by simp)
  · exact .call (by decide) first (by simpa using Phrase.text (by decide))
  · exact .call (by cases function <;> decide) first second

theorem Even.typeName {type : CastType} {name : String} (typed : d.castType type = .ok name) :
    Even name.toList := by
  have even : decide (Even name.toList) = true :=
    Dialect.castType_all (fun name => decide (Even name.toList))
      (by intro d type; cases d <;> cases type <;> decide) typed
  exact of_decide_eq_true even

theorem fits_castType {type : CastType} {name : String} (typed : d.castType type = .ok name) :
    fits .any (" AS " ++ name ++ ")").toList 1 .any 0 = true := by
  have even := Even.typeName typed
  have nested : nest (" AS " ++ name ++ ")").toList 1 = some 0 := by
    rw [String.toList_append, String.toList_append, nest_append, nest_append]
    have inside := nest_add even.2 1
    simp only [Nat.zero_add] at inside
    simp [nest, inside]
  have clean : tidy (" AS " ++ name ++ ")").toList = true := by
    rw [String.toList_append, String.toList_append]
    exact tidy_append (tidy_append (by decide) even.1) (by decide)
  obtain ⟨rest, spelled⟩ : ∃ rest, (" AS " ++ name ++ ")").toList = ' ' :: rest :=
    ⟨'A' :: 'S' :: ' ' :: (name.toList ++ [')']), by simp [String.toList_append]⟩
  rw [spelled] at nested clean ⊢
  have separated : Edge.after.admits (' ' :: rest) = true := rfl
  simp [fits, nested, clean, separated]

theorem Phrase.shifted (w : WindowCall) (c : Context) {column : Sql} (first : Phrase column) :
    Phrase (Sql.commaList (column :: w.shifts c)) := by
  refine .commaList (List.forall_mem_cons.mpr ⟨first, ?_⟩)
  have placeholder := Phrase.placeholder c
  have one : Phrase (sql "1") := .text (by decide)
  unfold WindowCall.shifts
  cases w.offset <;> cases w.fallback <;> simp [placeholder, one]

theorem WindowCall.Calls.phrase {c : Context} {w : WindowCall} {call : Sql}
    (calls : w.Calls c call) : Phrase call := by
  cases calls with
  | ranking checked ranks bare =>
    rcases ranks with ranks | ranks | ranks <;> rw [ranks] <;> exact .text (by decide)
  | ntile checked tiles bare given styled =>
    exact .enclosed (k := 1) (by decide) (by decide) (.placeholder c _)
  | @shift f column checked shifted given columned styled =>
    refine .enclosed (k := 1) ?_ (by decide) (.shifted w c (.field columned))
    rcases shifted with shifted | shifted <;> rw [shifted] <;> decide
  | edge checked edged given columned =>
    refine .enclosed (k := 1) ?_ (by decide) (.field columned)
    rcases edged with edged | edged <;> rw [edged] <;> decide
  | @aggregate kind column checked aggregates columned =>
    exact .enclosed (k := 1) (by cases kind <;> decide) (by decide)
      (.aggregateField columned (by decide))

end Expressions

section Parts

theorem operation_of_checkSubquery {operation : Operation}
    (reading : checkSubquery operation = .ok ()) :
    operation = .select ∨ operation = .count := by
  cases operation <;> simp_all [checkSubquery]

theorem Sql.Runs.subqueryLeft {c : Context} {f : Option Field} {op : Operator} {s : Sql}
    (made : subqueryLeft c f op = .ok s) : s.Runs (.ready .field) 0 .clear 0 := by
  rcases subqueryLeft_ok made with ⟨-, -, rfl⟩ | ⟨g, column, -, columned, rfl⟩
  · exact .text (by cases op <;> decide)
  · exact Sql.Runs.append (Phrase.field columned) (.text (by cases op <;> decide))

theorem Tail.joined (kind : JoinKind) (table : Table) :
    Tail (sql (" " ++ kind.keyword ++ " JOIN ") ++ table.render) := by
  have leads : (sql (" " ++ kind.keyword ++ " JOIN ")).Runs .any 0 (.ready .table) 0 :=
    .text (by cases kind <;> decide)
  exact leads.append table.runs_render

theorem Phrase.tuple (c : Context) (row : Row) : Phrase (tuple c row) := by
  refine Phrase.enclosed (k := 1) (by decide) (by decide) (.commaList fun p member => ?_)
  obtain ⟨param, -, rfl⟩ := List.mem_map.mp member
  exact .placeholder c param

theorem Phrase.assignment {assignment : Field × Sql} (value : Phrase assignment.2) :
    Phrase (assignmentSql assignment) := by
  have assigned : Sql.Runs (.ready .field) 0 [.name .field assignment.1.name, .text " = "]
      (.ready .field) 0 :=
    (Sql.Runs.name .field assignment.1.name).append (t := sql " = ") (.text (by decide))
  exact assigned.append value

end Parts
end TypedSql
