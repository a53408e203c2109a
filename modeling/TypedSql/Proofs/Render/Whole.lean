import TypedSql.Proofs.Sql.Operands

namespace TypedSql

section Fields
variable {d : Dialect} {s column : Sql}

theorem setOperation?_single (c : Char) : (Lexeme.word [c]).setOperation? = none := by
  refine setOperation?_word.mpr ?_
  simp [setWords]

theorem isOther_single (c : Char) : isOther [c] = true := by
  simp [isOther, setWords]

theorem Sql.KeepsWhole.name (kind : NameKind) (n : String) : KeepsWhole [.name kind n] :=
  textless rfl

theorem Sql.KeepsWhole.placeholder (c : Context) (p : Param) : (c.placeholder p).KeepsWhole :=
  textless rfl

theorem Table.keepsWhole (t : Table) : t.render.KeepsWhole := by
  unfold Table.render
  cases t.alias? with
  | none => exact .name .table t.name
  | some letter =>
    have spelled : (" " ++ letter.display).toList = [' '] ++ [letter.letter] := by
      rw [String.toList_append, letter.toList_display]
      rfl
    have inert : ∀ c ∈ [letter.letter], isInert c = true := by
      simp [isInert, letter.isWordRest_letter]
    refine Sql.KeepsWhole.append (.name .table t.name) (.of_text ?_)
    rw [spelled]
    have front : Whole (([] ++ [' ']).foldr gather []) := ⟨by decide, by decide⟩
    exact .closed (by decide) front inert (isOther_single letter.letter)

theorem Field.keepsWhole_column (f : Field) : f.column.KeepsWhole := by
  obtain ⟨name, qualifier, path⟩ := f
  rcases qualifier with _ | table | letter
  · exact .name .field name
  · exact (Sql.KeepsWhole.name .table table).append
      (Sql.KeepsWhole.append (s := sql ".") (.text (by decide)) (.name .field name))
  · have spelled : (letter.display ++ ".").toList = [letter.letter] ++ ['.'] ++ [] := by
      simp [letter.toList_display]
    have inert : isInert letter.letter = true := by simp [isInert, letter.isWordRest_letter]
    have lexed : ([letter.letter] ++ ['.']).foldr gather [] =
        [.word [letter.letter], .sign '.'] := by
      have dot : isInert '.' = false := by decide
      simp [gather, inert, dot]
    refine Sql.KeepsWhole.append (s := sql (letter.display ++ ".")) (.of_text ?_)
      (.name .field name)
    rw [spelled]
    refine KeepsWhole.closed (by decide) ⟨?_, ?_⟩ (by simp) (by decide)
    · rw [lexed]
      simpa using ⟨setOperation?_single letter.letter, rfl⟩
    · rw [lexed]
      simp [endsNone]

theorem Sql.KeepsWhole.pathSteps {path : Option JsonPath} (made : d.pathSteps path = .ok s) :
    s.KeepsWhole := by
  have leads {operator : String} (hops : operator = "->" ∨ operator = "->>") :
      (sql operator).KeepsWhole := by
    rcases hops with rfl | rfl <;> exact .text (by decide)
  refine Dialect.pathSteps_all .nil (fun operator hops l => ?_) (fun operator hops n => ?_)
    (fun _ _ first rest => first.append rest) made
  · exact (leads hops).append (t := [.literal l]) (.textless rfl)
  · exact (leads hops).concat (.of_text (.number n))

theorem Field.keepsWhole {f : Field} (made : f.render d = .ok s) : s.KeepsWhole := by
  obtain ⟨steps, walked, rfl⟩ := Field.render_ok_iff.mp made
  exact f.keepsWhole_column.append (.pathSteps walked)

theorem Sql.KeepsWhole.fields {fields : List Field} (made : renderFields fields d = .ok s) :
    s.KeepsWhole := by
  obtain ⟨pairs, rfl, rfl, each⟩ := renderFields_ok made
  exact .commaList (forall_snd fun p member => Field.keepsWhole (each p member))

theorem Sql.KeepsWhole.columns (names : List String) :
    (Sql.commaList (names.map fun n => [.name .field n])).KeepsWhole :=
  .commaList (List.forall_mem_map.mpr fun n _ => .name .field n)

theorem Sql.KeepsWhole.aggregateField {kind : AggregateKind} {f : Option Field}
    {missing : Missing} {column : Option Sql}
    (made : TypedSql.aggregateField d kind f missing = .ok column) {other : String}
    (checked : keepsWhole other.toList = true) : (column.getD (sql other)).KeepsWhole := by
  rcases aggregateField_ok made with ⟨rfl, rfl⟩ | ⟨g, rendered, rfl, rfl, columned⟩
  · exact .text checked
  · exact Field.keepsWhole columned

theorem Operand.keepsWhole {x : Operand} {c : Context} (made : (x.render c).result = .ok s) :
    s.KeepsWhole := by
  cases x with
  | field f => exact Field.keepsWhole made
  | param p =>
    obtain ⟨-, rfl⟩ := Context.param_ok_iff.mp made
    exact .placeholder c p

end Fields

section Expressions
variable {d : Dialect} {s left right : Sql}

namespace Sql.KeepsWhole

theorem paired {pre mid post : String} (opening : keepsWhole pre.toList = true)
    (first : left.KeepsWhole) (linking : keepsWhole mid.toList = true) (second : right.KeepsWhole)
    (closing : keepsWhole post.toList = true) :
    (sql pre ++ left ++ sql mid ++ right ++ sql post).KeepsWhole :=
  (((text opening).append first).linked linking second).append (text closing)

theorem compareSides (op : Operator) (first : left.KeepsWhole) (second : right.KeepsWhole) :
    (compareSides d left op right).KeepsWhole := by
  have linkedClosed {mid post : String} (linking : keepsWhole mid.toList = true)
      (closing : keepsWhole post.toList = true) :
      (left ++ sql mid ++ right ++ sql post).KeepsWhole :=
    (first.linked linking second).append (text closing)
  cases op
  case isIn => cases d <;> exact linkedClosed (by decide) (by decide)
  case notIn =>
    cases d
    case mySql => exact paired (by decide) first (by decide) second (by decide)
    all_goals exact linkedClosed (by decide) (by decide)
  case iLike | notILike =>
    cases d
    case postgres => exact first.linked (by decide) second
    all_goals exact paired (by decide) first (by decide) second (by decide)
  all_goals exact first.linked (by decide) second

theorem binary {op : BinaryOp} (made : d.binary left op right = .ok s) (first : left.KeepsWhole)
    (second : right.KeepsWhole) : s.KeepsWhole := by
  rcases Dialect.binary_ok made with rfl | rfl | rfl
  · exact paired (by decide) first (by decide) second (by decide)
  · exact first.linked (by decide) second
  · exact first.linked (by cases op <;> decide) second

theorem call {name : String} (opening : keepsWhole (name ++ "(").toList = true)
    {argument : Option Sql} (first : left.KeepsWhole) (second : ∀ s ∈ argument, s.KeepsWhole) :
    (Dialect.call name left argument).KeepsWhole := by
  cases argument with
  | none => exact enclosed opening first (by decide)
  | some s => exact paired opening first (by decide) (second s rfl) (by decide)

theorem mathCall (function : MathFunction) {argument : Option Sql} (first : left.KeepsWhole)
    (second : ∀ s ∈ argument, s.KeepsWhole) : (d.mathCall function left argument).KeepsWhole := by
  have zero : (sql "0").KeepsWhole := text (by decide)
  unfold Dialect.mathCall
  split
  · exact call (by decide) first (by simp)
  · exact call (by decide) first (by simpa using zero)
  · exact call (by cases function <;> decide) first second

theorem castType {type : CastType} {name : String} (typed : d.castType type = .ok name) :
    (sql (" AS " ++ name ++ ")")).KeepsWhole :=
  text (Dialect.castType_all (fun name => keepsWhole (" AS " ++ name ++ ")").toList)
    (by intro d type; cases d <;> cases type <;> decide) typed)

theorem shifted (w : WindowCall) (c : Context) {column : Sql} (first : column.KeepsWhole) :
    (Sql.commaList (column :: w.shifts c)).KeepsWhole := by
  refine commaList (List.forall_mem_cons.mpr ⟨first, ?_⟩)
  have one : (sql "1").KeepsWhole := text (by decide)
  unfold WindowCall.shifts
  cases w.offset <;> cases w.fallback <;> simp [placeholder, one]

theorem subqueryLeft {c : Context} {f : Option Field} {op : Operator}
    (made : subqueryLeft c f op = .ok s) : s.KeepsWhole := by
  rcases subqueryLeft_ok made with ⟨-, -, rfl⟩ | ⟨g, column, -, columned, rfl⟩
  · exact text (by cases op <;> decide)
  · exact (Field.keepsWhole columned).append (text (by cases op <;> decide))

theorem bound (bound : FrameBound) : (sql bound.text).KeepsWhole := by
  cases bound with
  | preceding n | following n => exact (of_text (.number _)).concat (text (by decide))
  | _ => exact text (by decide)

theorem frame (frame : Frame) : (sql frame.text).KeepsWhole := by
  have units : (sql frame.units.keyword).KeepsWhole := by
    cases frame.units <;> exact text (by decide)
  have blank : (sql " ").KeepsWhole := text (by decide)
  have between : (sql " BETWEEN ").KeepsWhole := text (by decide)
  have and : (sql " AND ").KeepsWhole := text (by decide)
  unfold Frame.text
  cases frame.stop with
  | none => exact (units.concat blank).concat (bound _)
  | some stop =>
    exact (((units.concat between).concat (bound _)).concat and).concat (bound stop)

theorem windowOver {partitionBy : List Field} {partitioned ordered framed : List Sql}
    {frame : Option Frame} (partition : WindowCall.partitionParts d partitionBy = .ok partitioned)
    (order : ∀ part ∈ ordered, part.KeepsWhole) (made : WindowCall.frameParts frame = .ok framed) :
    (Sql.join " " (partitioned ++ windowOrder ordered ++ framed)).KeepsWhole := by
  refine join (by decide) (List.forall_mem_append.mpr ⟨List.forall_mem_append.mpr ⟨?_, ?_⟩, ?_⟩)
  · rcases WindowCall.partitionParts_ok partition with ⟨-, rfl⟩ | ⟨columns, rendered, rfl⟩
    · simp
    · have leads : (sql "PARTITION BY ").KeepsWhole := text (by decide)
      exact List.forall_mem_singleton.mpr (leads.append (fields rendered))
  · unfold windowOrder
    split
    · simp
    · have leads : (sql "ORDER BY ").KeepsWhole := text (by decide)
      exact List.forall_mem_singleton.mpr (leads.append (commaList order))
  · rw [WindowCall.frameParts_ok made]
    exact List.forall_mem_map.mpr fun f _ => Sql.KeepsWhole.frame f

end Sql.KeepsWhole

theorem WindowCall.Calls.keepsWhole {c : Context} {w : WindowCall} {call : Sql}
    (calls : w.Calls c call) : call.KeepsWhole := by
  cases calls with
  | ranking checked ranks bare =>
    rcases ranks with ranks | ranks | ranks <;> rw [ranks] <;> exact .text (by decide)
  | ntile checked tiles bare given styled =>
    exact .enclosed (by decide) (.placeholder c _) (by decide)
  | @shift f column checked shifted given columned styled =>
    refine .enclosed ?_ (.shifted w c (Field.keepsWhole columned)) (by decide)
    rcases shifted with shifted | shifted <;> rw [shifted] <;> decide
  | edge checked edged given columned =>
    refine .enclosed ?_ (Field.keepsWhole columned) (by decide)
    rcases edged with edged | edged <;> rw [edged] <;> decide
  | @aggregate kind column checked aggregates columned =>
    exact .enclosed (by cases kind <;> decide) (.aggregateField columned (by decide)) (by decide)

end Expressions

section Clauses
variable {d : Dialect} {s : Sql}

namespace Sql.KeepsWhole

theorem distinct {given : Bool} {on : List Field} (made : renderDistinct d given on = .ok s) :
    s.KeepsWhole := by
  rcases renderDistinct_ok made with ⟨-, rfl⟩ | ⟨-, -, rfl⟩ | ⟨-, -, columns, rendered, rfl⟩
  · exact text (by decide)
  · exact nil
  · exact enclosed (by decide) (fields rendered) (by decide)

theorem projection {parts : List Sql} (each : ∀ part ∈ parts, part.KeepsWhole) :
    (projection parts).KeepsWhole := by
  unfold TypedSql.projection
  split
  · exact text (by decide)
  · exact commaList each

theorem lock {lock : Option RowLock} {written : Sql × Sql}
    (made : renderLock d lock = .ok written) : written.1.KeepsWhole ∧ written.2.KeepsWhole := by
  rcases renderLock_ok made with rfl | ⟨⟨strength, waiting⟩, -, rfl | rfl⟩
  · exact ⟨nil, nil⟩
  · exact ⟨nil, text (by cases strength <;> cases waiting <;> decide)⟩
  · exact ⟨text (by cases strength <;> cases waiting <;> decide), nil⟩

theorem conditional (keyword : String)
    (leading : TypedSql.keepsWhole (" " ++ keyword ++ " ").toList = true)
    {condition : Option Sql} (inner : ∀ s ∈ condition, s.KeepsWhole) :
    (conditional keyword condition).KeepsWhole := by
  cases condition with
  | none => exact nil
  | some s => exact (text leading).append (inner s rfl)

theorem groupBy {columns : List Field} (made : renderGroupBy d columns = .ok s) :
    s.KeepsWhole := by
  rcases renderGroupBy_ok made with ⟨-, rfl⟩ | ⟨-, columns, rendered, rfl⟩
  · exact nil
  · exact (text (by decide)).append (fields rendered)

theorem orderClause {parts : List Sql} (each : ∀ part ∈ parts, part.KeepsWhole) :
    (orderClause parts).KeepsWhole := by
  unfold TypedSql.orderClause
  split
  · exact nil
  · exact (text (by decide)).append (commaList each)

theorem pagination (d : Dialect) (limit offset : Option UInt64) (ordered : Bool) :
    (sql (d.pagination limit offset ordered)).KeepsWhole := by
  have number (n : Nat) : (sql (toString n)).KeepsWhole := of_text (.number n)
  have blank : (sql "").KeepsWhole := text (by decide)
  have limited (n : Nat) : (sql (" LIMIT " ++ toString n)).KeepsWhole :=
    concat (text (by decide)) (number n)
  have started (n : Nat) : (sql (" OFFSET " ++ toString n)).KeepsWhole :=
    concat (text (by decide)) (number n)
  have withLimit {unlimited : String} (checked : keepsWhole (" LIMIT " ++ unlimited).toList = true) :
      (sql (Dialect.pagination.withLimit limit offset unlimited)).KeepsWhole := by
    cases limit with
    | none =>
      cases offset with
      | none => exact blank
      | some m => exact (concat (text checked) (text (by decide))).concat (number _)
    | some n =>
      cases offset with
      | none => exact limited _
      | some m => exact (concat (limited _) (text (by decide))).concat (number _)
  cases d with
  | postgres =>
    refine concat ?_ ?_
    · cases limit with
      | none => exact blank
      | some n => exact limited _
    · cases offset with
      | none => exact blank
      | some m => exact started _
  | mySql => exact withLimit (by decide)
  | sqlite => exact withLimit (by decide)
  | sqlServer =>
    simp only [Dialect.pagination]
    split
    · exact blank
    · have opening : (sql (if ordered then "" else " ORDER BY (SELECT NULL)")).KeepsWhole := by
        cases ordered <;> exact text (by decide)
      have fetched : (sql (limit.elim "" fun n =>
          " FETCH NEXT " ++ toString n.toNat ++ " ROWS ONLY")).KeepsWhole := by
        cases limit with
        | none => exact blank
        | some n => exact ((text (by decide)).concat (number _)).concat (text (by decide))
      exact (((opening.concat (text (by decide))).concat (number _)).concat
        (text (by decide))).concat fetched

theorem output {source : OutputSource} {returning : List Field}
    (made : renderOutput d source returning = .ok s) : s.KeepsWhole := by
  rcases renderOutput_ok made with ⟨-, rfl⟩ | ⟨-, -, rfl⟩
  · exact nil
  · refine (text (by decide)).append (commaList (List.forall_mem_map.mpr fun f _ => ?_))
    exact append (s := sql (source.keyword ++ ".")) (text (by cases source <;> decide))
      (name .field f.name)

theorem returning {returning : List Field} (made : renderReturning d returning = .ok s) :
    s.KeepsWhole := by
  rcases renderReturning_ok made with ⟨-, rfl⟩ | ⟨-, rfl⟩ | ⟨-, -, columns, rendered, rfl⟩
  · exact nil
  · exact nil
  · exact (text (by decide)).append (fields rendered)

theorem target {target : List Field} (made : renderTarget target = .ok s) : s.KeepsWhole := by
  rcases renderTarget_ok made with ⟨-, rfl⟩ | ⟨-, rfl⟩
  · exact nil
  · have names := columns (target.map (·.name))
    rw [List.map_map] at names
    exact enclosed (by decide) names (by decide)

theorem assigned (column : String) (value : s.KeepsWhole) :
    KeepsWhole ([Piece.name .field column, .text " = "] ++ s) :=
  ((name .field column).append (t := sql " = ") (text (by decide))).append value

theorem conflictSets (c : Context) {rejected : String → Sql}
    (valued : ∀ column, (rejected column).KeepsWhole) (updates : NameMap ConflictValue) :
    (conflictSets c rejected updates).KeepsWhole := by
  refine commaList (List.forall_mem_map.mpr ?_)
  rintro ⟨column, value⟩ -
  cases value with
  | param p => exact assigned column (placeholder c p)
  | excluded => exact assigned column (valued column)

theorem tuple (c : Context) (row : Row) : (tuple c row).KeepsWhole :=
  enclosed (by decide) (commaList (List.forall_mem_map.mpr fun p _ => placeholder c p)) (by decide)

end Sql.KeepsWhole

theorem Upserts.keepsWhole {c : Context} {conflict : Option OnConflict}
    (upserts : Upserts c conflict s) : s.KeepsWhole := by
  cases upserts with
  | none | ignore => exact .nil
  | skip targeted written => exact .enclosed (by decide) (.target written) (by decide)
  | update targeted written =>
    have excluded (column : String) : (excludedColumn column).KeepsWhole :=
      Sql.KeepsWhole.append (s := sql "EXCLUDED.") (.text (by decide)) (.name .field column)
    exact .linked (.append (.text (by decide)) (.target written)) (by decide)
      (.conflictSets c excluded _)
  | duplicate =>
    have values (column : String) : (valuesColumn column).KeepsWhole := by
      show Sql.KeepsWhole (sql "VALUES(" ++ [Piece.name .field column] ++ sql ")")
      exact .enclosed (by decide) (.name .field column) (by decide)
    exact .append (.text (by decide)) (.conflictSets c values _)

end Clauses

/-- No text that is rendered for a query begins a set operation, nor does one come about where
    texts meet. -/
theorem Renders.keepsWhole {c : Context} {n : Node} {s : Sql} (made : Renders c n s) :
    s.KeepsWhole := by
  -- fixed text is checked by computation, what it encloses is whole by induction
  induction made with
  | field columned => exact Field.keepsWhole columned
  | @aggregate c kind f column columned =>
    exact .enclosed (by cases kind <;> decide) (.aggregateField columned (by decide)) (by decide)
  | @filtered c kind f column filter condition columned native _ ih =>
    exact .paired (by cases kind <;> decide) (.aggregateField columned (by decide)) (by decide) ih
      (by decide)
  | @chosen c kind f column filter condition columned rewritten _ ih =>
    exact .paired (by cases kind <;> decide) ih (by decide)
      (.aggregateField columned (by decide)) (by decide)
  | case branched _ ih => exact .enclosed (by decide) (.flatten (forall_snd ih)) (by decide)
  | @caseElse c whens otherwise branched _ styled ih =>
    exact .paired (by decide) (.flatten (forall_snd ih)) (by decide) (.placeholder c otherwise)
      (by decide)
  | coalesce several rendered =>
    exact .enclosed (by decide)
      (.commaList (forall_snd fun o member => Operand.keepsWhole (rendered o member))) (by decide)
  | nullIf first second =>
    exact .paired (by decide) (Operand.keepsWhole first) (by decide) (Operand.keepsWhole second)
      (by decide)
  | math columned argument => exact .mathCall _ (Field.keepsWhole columned) (by simp)
  | @mathWith c call column p columned argument styled =>
    exact .mathCall _ (Field.keepsWhole columned) (by simpa using .placeholder c p)
  | cast columned typed =>
    exact (Sql.KeepsWhole.append (.text (by decide)) (Field.keepsWhole columned)).append
      (.castType typed)
  | window called partition listed _ frame ih =>
    exact (called.keepsWhole.linked (by decide) (.windowOver partition (forall_snd ih) frame)).append
      (.text (by decide))
  | @binary c f op p column text columned styled joined =>
    exact .binary joined (Field.keepsWhole columned) (.placeholder c p)
  | projected _ ih => exact ih
  | @aliased c e text output _ ih =>
    exact ih.append (.append (s := sql " AS ") (.text (by decide)) (.name .outputAlias output.name))
  | @ordered c e text direction _ ih =>
    exact ih.append (.text (by cases direction <;> decide))
  | @orderedNulls c e text direction nulls _ supported ih =>
    exact ih.append (.text (by cases direction <;> cases nulls <;> decide))
  | @whenClause c x text result _ styled ih =>
    exact Sql.KeepsWhole.linked (.append (.text (by decide)) ih) (by decide)
      (.placeholder c result)
  | @null c scope nested f op column columned unary =>
    exact (Field.keepsWhole columned).append (.text (by cases op <;> decide))
  | @simple c scope nested f op p column columned binary takes styled =>
    exact .compareSides op (Field.keepsWhole columned) (.placeholder c p)
  | only _ ih => exact ih
  | @group c scope nested op items several _ ih =>
    have joined : (Sql.join (" " ++ op.keyword ++ " ") (items.map Prod.snd)).KeepsWhole :=
      .join (by cases op <;> decide) (forall_snd ih)
    cases nested with
    | false => exact joined
    | true => exact .enclosed (by decide) joined (by decide)
  | fieldComparison comparing first second =>
    exact .compareSides _ (Field.keepsWhole first) (Field.keepsWhole second)
  | subquery started reading entered _ ih =>
    exact (Sql.KeepsWhole.subqueryLeft started).append (.enclosed (by decide) ih (by decide))
  | @between c scope nested f low high negated column columned styled =>
    have links : TypedSql.keepsWhole (if negated then " NOT BETWEEN " else " BETWEEN ").toList =
        true := by cases negated <;> decide
    exact ((Field.keepsWhole columned).linked links (.placeholder c low)).linked (by decide)
      (.placeholder c high)
  | @aggregateCondition c nested kind f op p column comparing columned styled =>
    have aggregated : (sql (aggregateOpening kind) ++ column.getD (sql "*") ++ sql ")").KeepsWhole :=
      .enclosed (by cases kind <;> decide) (.aggregateField columned (by decide)) (by decide)
    exact aggregated.linked (by cases op <;> decide) (.placeholder c p)
  | @expression c scope nested e op p left comparing placed _ styled ih =>
    exact .compareSides op ih (.placeholder c p)
  | @crossJoin c kind table formed supported =>
    exact .append (.text (by cases kind <;> decide)) table.keepsWhole
  | @join c kind table on text formed supported _ ih =>
    exact .linked (.append (.text (by cases kind <;> decide)) table.keepsWhole) (by decide) ih
  | @assignedParam c p styled => exact .placeholder c p
  | assignedExpr admitted _ ih => exact ih
  | @select c q distinct lock groupBy fields joins filter having items operation clauses rules
      distinctly _ _ locks _ _ _ _ groups _ _ _ _ projects joined filters havings order =>
    obtain ⟨hint, suffix⟩ := Sql.KeepsWhole.lock locks
    have select : (sql "SELECT " ++ distinct).KeepsWhole :=
      .append (.text (by decide)) (.distinct distinctly)
    have source : (sql " FROM ").KeepsWhole := .text (by decide)
    have table := (((select.append (.projection (forall_snd projects))).append source).append
      q.table.keepsWhole).append hint
    have body := (table.append (.flatten (forall_snd joined))).append
      (.conditional "WHERE" (by decide) (forall_snd_option filters))
    have grouped := (body.append (.groupBy groups)).append
      (.conditional "HAVING" (by decide) (forall_snd_option havings))
    exact ((grouped.append (.orderClause (forall_snd order))).append
      (.pagination _ _ _ _)).append suffix
  | @count c q joins filter operation clauses _ _ _ _ joined filters =>
    have table : (sql "SELECT COUNT(*) FROM " ++ q.table.render).KeepsWhole :=
      .append (.text (by decide)) q.table.keepsWhole
    exact (table.append (.flatten (forall_snd joined))).append
      (.conditional "WHERE" (by decide) (forall_snd_option filters))
  | @insert c q first output upsert returning operation clauses shaped styled outputs upserts
      returns =>
    have keyword : (sql (insertKeyword c.dialect q.onConflict)).KeepsWhole := by
      unfold insertKeyword
      split <;> exact .text (by decide)
    have opening : (sql " (").KeepsWhole := .text (by decide)
    have columns := (((keyword.append q.table.keepsWhole).append opening).append
      (.columns first.names)).append (t := sql ")") (.text (by decide))
    have reported := columns.append (.output outputs)
    have rows : (Sql.commaList (q.rows.map (TypedSql.tuple c))).KeepsWhole :=
      .commaList (List.forall_mem_map.mpr fun row _ => .tuple c row)
    exact ((reported.linked (by decide) rows).append upserts.keepsWhole).append (.returning returns)
  | @update c q output returning sets filter operation clauses assigned setsListed _ plain
      unrepeated outputs filterGiven _ returns values filters =>
    have assignments : (Sql.commaList ((sortAssignments (sets.map fun a =>
        (a.1.field, a.2))).map assignmentSql)).KeepsWhole := by
      refine .commaList (List.forall_mem_map.mpr fun assignment inside => ?_)
      obtain ⟨a, among, rfl⟩ := List.mem_map.mp (mem_sortAssignments.mp inside)
      exact .assigned a.1.field.name (values a among)
    have table : (sql "UPDATE " ++ q.table.render).KeepsWhole :=
      .append (.text (by decide)) q.table.keepsWhole
    exact (((table.linked (by decide) assignments).append (.output outputs)).append
      (.conditional "WHERE" (by decide) (forall_snd_option filters))).append (.returning returns)
  | @delete c q output returning filter operation clauses outputs _ _ returns filters =>
    have table : (sql "DELETE FROM " ++ q.table.render).KeepsWhole :=
      .append (.text (by decide)) q.table.keepsWhole
    exact ((table.append (.output outputs)).append
      (.conditional "WHERE" (by decide) (forall_snd_option filters))).append (.returning returns)

end TypedSql
