import TypedSql.Proofs.Render.Hushed

namespace TypedSql

def OnConflict.headings (conflict : OnConflict) : List Heading :=
  .onConflict ::
    match conflict.action with
    | .doNothing => []
    | .doUpdate updates => [.set updates.entries.length]

/-- What a clause of a query has to say of itself in the text. An alias and a projection have no
    keyword. -/
def Clause.headings (q : Query) : Clause → List Heading
  | .tableAlias | .projection => []
  | .distinct => if q.distinct then [.distinct] else []
  | .distinctOn => if q.distinctOn.isEmpty then [] else [.distinctOn]
  | .join => q.joins.map fun join => .join join.kind
  | .filter => if q.filter.isSome then [.filter] else []
  | .groupBy => if q.groupBy.isEmpty then [] else [.groupBy]
  | .having => if q.having.isSome then [.having] else []
  | .orderBy => if q.orderBy.isEmpty then [] else [.orderBy]
  | .limit => q.limit.toList.map fun n => .limit n.toNat
  | .offset => q.offset.toList.map fun n => .offset n.toNat
  | .lock => q.lock.toList.map .lock
  | .values => if q.rows.isEmpty then [] else [.values q.rows.length]
  | .set => if q.assignments.isEmpty then [] else [.set q.assignments.length]
  | .returning => if q.returning.isEmpty then [] else [.returning]
  | .onConflict => q.onConflict.toList.flatMap OnConflict.headings

def Clause.written : List Clause :=
  [.distinct, .distinctOn, .projection, .tableAlias, .join, .values, .set, .filter, .groupBy,
    .having, .orderBy, .limit, .offset, .lock, .onConflict, .returning]

/-- All that the clauses of a query have to say, whatever its operation is. -/
def Query.headings (q : Query) : List Heading := Clause.written.flatMap (Clause.headings q)

section Absent

theorem Clause.headings_eq_nil_iff {q : Query} {clause : Clause} :
    clause.headings q = [] ↔
      clause.isPresent q = false ∨ clause = .tableAlias ∨ clause = .projection := by
  cases clause
  case onConflict =>
    cases conflict : q.onConflict <;> simp [isPresent, headings, OnConflict.headings, conflict]
  all_goals simp [isPresent, headings]

theorem flatMap_filter_of_nil {α β : Type} {f : α → List β} {p : α → Bool} {xs : List α}
    (nothing : ∀ x ∈ xs, p x = false → f x = []) : xs.flatMap f = (xs.filter p).flatMap f := by
  induction xs with
  | nil => rfl
  | cons x xs ih =>
    have others := ih fun y member => nothing y (List.mem_cons_of_mem _ member)
    cases keep : p x with
    | true => simp [keep, others]
    | false => simp [keep, others, nothing x List.mem_cons_self keep]

theorem Query.headings_eq {q : Query} (clauses : q.checkClauses = .ok ()) :
    q.headings =
      (Clause.written.filter fun clause => q.operation.clauses.contains clause).flatMap
        (Clause.headings q) := by
  refine flatMap_filter_of_nil fun clause _ outside => ?_
  have absent := q.isPresent_eq_false clauses clause (by simpa using outside)
  exact Clause.headings_eq_nil_iff.mpr (.inl absent)

end Absent

section Parts
variable {spell : Hole → String} {s t : Sql} {headings : List Heading} {pre : String}

theorem Sql.lexemes_sql_append (a b : String) (t : Sql) :
    (sql (a ++ b) ++ t).lexemes spell = (sql a ++ (sql b ++ t)).lexemes spell := by
  simp only [sql, List.singleton_append, lexemes_text_cons, String.toList_append, List.foldr_append]

theorem Sql.Clauses.congr {lead : List Mark} (same : s.lexemes spell = t.lexemes spell)
    (clauses : t.Clauses spell lead headings) : s.Clauses spell lead headings := by
  unfold Sql.Clauses Sql.Outlined at *
  rwa [same]

theorem Sql.Clauses.conditional (opening : Opening) {heading : Heading} {keyword : String}
    (begins : TypedSql.opened (" " ++ keyword ++ " ").toList = true)
    (begun : opens opening [] (" " ++ keyword ++ " ").toList = true)
    (headed : ∀ body, heading? (opening, body) = some heading) {α : Type} {pair : Option (α × Sql)}
    (each : ∀ x ∈ pair, x.2.Hushed spell 0 0) :
    (TypedSql.conditional keyword (pair.map Prod.snd)).Clauses spell []
      (if (pair.map Prod.fst).isSome then [heading] else []) := by
  cases pair with
  | none => exact .nil
  | some x =>
    obtain ⟨marks, shown, -⟩ := (each x rfl).exists_shows
    exact .single begins begun shown (headed _)

theorem Sql.Clauses.filter (marked : SpelledMarked spell) {c : Context}
    {filter : Option (Condition × Sql)}
    (filters : ∀ x ∈ filter, Renders c (.condition .whereClause false x.1) x.2) :
    (TypedSql.conditional "WHERE" (filter.map Prod.snd)).Clauses spell []
      (if (filter.map Prod.fst).isSome then [.filter] else []) :=
  .conditional .filter (by decide) (by decide) (fun _ => rfl) fun x given =>
    (filters x given).hushed marked

theorem Sql.Clauses.having (marked : SpelledMarked spell) {c : Context}
    {having : Option (Condition × Sql)}
    (havings : ∀ x ∈ having, Renders c (.condition .having false x.1) x.2) :
    (TypedSql.conditional "HAVING" (having.map Prod.snd)).Clauses spell []
      (if (having.map Prod.fst).isSome then [.having] else []) :=
  .conditional .having (by decide) (by decide) (fun _ => rfl) fun x given =>
    (havings x given).hushed marked

theorem Sql.Clauses.joins (marked : SpelledMarked spell) {c : Context} {joins : List (Join × Sql)}
    (joined : ∀ j ∈ joins, Renders c (.join j.1) j.2) :
    Clauses spell (joins.map Prod.snd).flatten []
      ((joins.map Prod.fst).map fun join => .join join.kind) :=
  .flatten fun j member => (joined j member).hushed marked

theorem Sql.Clauses.orderClause {α : Type} {pairs : List (α × Sql)}
    (each : ∀ p ∈ pairs, p.2.Hushed spell 0 0) :
    (TypedSql.orderClause (pairs.map Prod.snd)).Clauses spell []
      (if (pairs.map Prod.fst).isEmpty then [] else [.orderBy]) := by
  cases pairs with
  | nil => exact .nil
  | cons p rest =>
    obtain ⟨marks, shown, -, -⟩ := Sql.Lists.commaList (forall_snd each)
    have begun : opens .orderBy [.word "BY".toList] " ORDER BY ".toList = true := by decide
    exact .single (by decide) begun shown (by simp [heading?, Mark.is])

theorem renderFields_lists {d : Dialect} {fields : List Field}
    (made : renderFields fields d = .ok s) : s.Lists spell (fields.length - 1) := by
  obtain ⟨pairs, rfl, rfl, each⟩ := renderFields_ok made
  have listed : (Sql.commaList (pairs.map Prod.snd)).Lists spell ((pairs.map Prod.snd).length - 1) :=
    .commaList (forall_snd fun p member => Field.hushed (each p member))
  simpa using listed

theorem Sql.Clauses.groupBy {d : Dialect} {groupBy : List Field}
    (made : renderGroupBy d groupBy = .ok s) :
    s.Clauses spell [] (if groupBy.isEmpty then [] else [.groupBy]) := by
  rcases renderGroupBy_ok made with ⟨rfl, rfl⟩ | ⟨full, fields, rendered, rfl⟩
  · exact .nil
  · obtain ⟨marks, shown, -, -⟩ : fields.Lists spell _ := renderFields_lists rendered
    have begun : opens .groupBy [.word "BY".toList] " GROUP BY ".toList = true := by decide
    rw [if_neg (mt List.isEmpty_iff.mp full)]
    exact .single (by decide) begun shown (by simp [heading?, Mark.is])

theorem Sql.Clauses.returning {returning : List Field}
    (made : renderReturning .postgres returning = .ok s) :
    s.Clauses spell [] (if returning.isEmpty then [] else [.returning]) := by
  rcases renderReturning_ok made with ⟨rfl, rfl⟩ | ⟨output, -⟩ | ⟨-, full, fields, rendered, rfl⟩
  · exact .nil
  · cases output
  · obtain ⟨marks, shown, -, -⟩ : fields.Lists spell _ := renderFields_lists rendered
    have begun : opens .returning [] " RETURNING ".toList = true := by decide
    rw [if_neg (mt List.isEmpty_iff.mp full)]
    exact .single (by decide) begun shown rfl

theorem renderOutput_postgres {source : OutputSource} {returning : List Field}
    (made : renderOutput .postgres source returning = .ok s) : [] = s := by
  simpa [renderOutput, Dialect.returningStyle] using made

theorem Sql.Shows.number (n : Nat) :
    ∃ m, (sql (toString n)).Shows spell [m] ∧ m.number? = some n := by
  have digits := isDigit_toString n
  have whole : (toString n).toList.map Char.toUpper = (toString n).toList := by
    refine (List.map_congr_left fun c member => ?_).trans (List.map_id _)
    simpa using digit_all (fun c => c.toUpper == c) (by decide) (digits c member)
  have bare : (Lexeme.word (toString n).toList).isBare = true := isBare_of_digits digits
  refine ⟨.word ((toString n).toList.map Char.toUpper), ⟨?_, ?_⟩, ?_⟩
  · rw [lexemes_sql, foldr_gather_word (isInert_toString n) (toList_toString_ne_nil n)]
    rfl
  · exact List.forall_mem_singleton.mpr (Mark.opening?_of_plain (isPlain_of_bare bare))
  · rw [whole, Mark.number?, if_pos (List.all_eq_true.mpr digits), Nat.toString_eq_ofList_toDigits,
      String.toList_ofList, Nat.ofDigitChars_ten_toDigits]

theorem Sql.Clauses.counted (opening : Opening) (keyword : String) (heading : Nat → Heading)
    (begins : TypedSql.opened keyword.toList = true)
    (begun : opens opening [] keyword.toList = true)
    (headed : ∀ m : Mark, heading? (opening, [m]) = m.number?.map heading) (n : Option UInt64)
    (next : t.Clauses spell [] headings) :
    (sql (n.elim "" fun n => keyword ++ toString n.toNat) ++ t).Clauses spell []
      (n.toList.map (fun n => heading n.toNat) ++ headings) := by
  cases n with
  | none => exact .congr (by simp [sql, Sql.lexemes_text_cons]) next
  | some n =>
    obtain ⟨m, shown, number⟩ : ∃ m, (sql (toString n.toNat)).Shows spell [m] ∧
        m.number? = some n.toNat := Sql.Shows.number n.toNat
    have clause : (sql keyword ++ sql (toString n.toNat) ++ t).Clauses spell []
        (heading n.toNat :: headings) :=
      .opened begins begun shown next (by simp [headed, number])
    rw [List.append_assoc] at clause
    exact .congr (Sql.lexemes_sql_append _ _ _) clause

theorem Sql.Clauses.pagination (limit offset : Option UInt64) (ordered : Bool) :
    (sql (Dialect.postgres.pagination limit offset ordered)).Clauses spell []
      (limit.toList.map (fun n => .limit n.toNat) ++ offset.toList.map fun n => .offset n.toNat) := by
  have after : (sql (offset.elim "" fun n => " OFFSET " ++ toString n.toNat)).Clauses spell []
      (offset.toList.map fun n => .offset n.toNat) := by
    have alone : Sql.Clauses spell _ [] _ :=
      .counted .offset " OFFSET " .offset (by decide) (by decide) (fun _ => rfl) offset .nil
    simpa using alone
  have whole : Sql.Clauses spell _ [] _ :=
    .counted .limit " LIMIT " .limit (by decide) (by decide) (fun _ => rfl) limit after
  refine .congr ?_ whole
  have split : Sql.lexemes spell _ = Sql.lexemes spell _ := Sql.lexemes_sql_append
    (limit.elim "" fun n => " LIMIT " ++ toString n.toNat)
    (offset.elim "" fun n => " OFFSET " ++ toString n.toNat) []
  simpa [Dialect.pagination] using split

theorem Sql.Clauses.lock {lock : Option RowLock} {written : Sql × Sql}
    (made : renderLock .postgres lock = .ok written) :
    written.1 = [] ∧ written.2.Clauses spell [] (lock.toList.map .lock) := by
  cases lock with
  | none =>
    obtain rfl : ([], []) = written := by simpa [renderLock, pure, Except.pure] using made
    exact ⟨rfl, .nil⟩
  | some lock =>
    obtain rfl : ([], sql (Dialect.lockSuffix lock)) = written := by
      simpa [renderLock, Dialect.lockClause, Dialect.require, Dialect.supports, bind, Except.bind,
        pure, Except.pure] using made
    obtain ⟨strength, waiting⟩ := lock
    refine ⟨rfl, ?_⟩
    cases strength <;> cases waiting <;>
      exact .text (by decide) (by decide) (by decide) (by decide)

theorem Sql.Hushed.entry {value : Sql} (name : String) (hushed : value.Hushed spell 0 0) :
    Sql.Hushed spell 0 ([Piece.name .field name, .text " = "] ++ value) 0 := by
  have target : Sql.Hushed spell 0 [.name .field name] 0 := .of_bare (.single rfl)
  exact target.linked (by decide) (by decide) hushed

theorem Sql.Lists.conflictSets (marked : SpelledMarked spell) (c : Context)
    (updates : NameMap ConflictValue) :
    (TypedSql.conflictSets c excludedColumn updates).Lists spell (updates.entries.length - 1) := by
  have each : ∀ part ∈ updates.entries.map (conflictSetSql c excludedColumn),
      part.Hushed spell 0 0 := by
    intro part member
    obtain ⟨⟨column, value⟩, -, rfl⟩ := List.mem_map.mp member
    cases value with
    | param p => exact .entry column (.placeholder marked c p)
    | excluded =>
      have name : Sql.Hushed spell 0 [.name .field column] 0 := .of_bare (.single rfl)
      exact .entry column (.led (by decide) name)
  have listed := Sql.Lists.commaList each
  rwa [List.length_map] at listed

theorem renderTarget_shows (inert : SpelledInert spell) {target : List Field}
    (made : renderTarget target = .ok s) :
    Apart (s.lexemes spell) ∧ ∃ marks, s.Shows spell marks := by
  rcases renderTarget_ok made with ⟨-, rfl⟩ | ⟨-, rfl⟩
  · exact ⟨trivial, [], rfl, by simp⟩
  · have names := Phrase.names (target.map (·.name))
    rw [List.map_map] at names
    constructor
    · rw [List.append_assoc]
      exact Sql.apart_of_opened (by decide)
    · have opening : skim 0 (" (".toList.foldr gather []) = ([.group], 1) := by decide
      have closing : skim 1 (")".toList.foldr gather []) = ([], 0) := by decide
      exact ⟨_, Sql.skim_enclosed inert (by decide) opening names (by decide) closing, by decide⟩

theorem Sql.Clauses.conflict {columns : Sql} {lead marks : List Mark}
    (apart : Apart (columns.lexemes spell)) (shown : columns.Shows spell marks)
    (next : t.Clauses spell lead headings) :
    (sql " ON CONFLICT" ++ columns ++ t).Clauses spell [.word "ON".toList]
      (.onConflict :: headings) := by
  obtain ⟨apart', marks', clauses, skimmed, cut, read⟩ := next
  have fixed : skim 0 (" ON CONFLICT".toList.foldr gather []) =
      ([.word "ON".toList, .word Opening.onConflict.word.toList], 0) := by decide
  have on : ∀ m ∈ [Mark.word "ON".toList], m.opening? = none := by decide
  refine ⟨?_, [Mark.word "ON".toList] ++ Mark.word Opening.onConflict.word.toList :: (marks ++ marks'),
    (.onConflict, marks ++ lead) :: clauses, ?_, ?_, ?_⟩
  · rw [List.append_assoc]
    exact apart_of_opened (by decide)
  · rw [lexemes_append apart', lexemes_append apart, lexemes_sql, skim_append, skim_append, fixed,
      shown.1, skimmed]
    simp
  · rw [sections_inner on, sections_opening, sections_inner shown.2, cut]
    rfl
  · rw [List.mapM_cons, read]
    rfl

theorem Sql.Clauses.doUpdate (marked : SpelledMarked spell) (c : Context)
    {updates : NameMap ConflictValue} (full : updates.isEmpty = false) :
    (sql " DO UPDATE SET " ++ TypedSql.conflictSets c excludedColumn updates).Clauses spell
      [.word "DO".toList, .word "UPDATE".toList] [.set updates.entries.length] := by
  obtain ⟨marks, sets, -, counted⟩ := Sql.Lists.conflictSets marked c updates
  have some : 0 < updates.entries.length := by
    cases entries : updates.entries with
    | nil => simp [NameMap.isEmpty, entries] at full
    | cons _ _ => simp
  have begun : opens .set [] "SET ".toList = true := by decide
  have set : (sql "SET " ++ TypedSql.conflictSets c excludedColumn updates ++ []).Outlined spell []
      [.set updates.entries.length] :=
    .opened (.text begun) sets .nil (by simp [heading?, counted, Nat.sub_add_cancel some])
  rw [List.append_nil] at set
  have doing : stays [.word "DO".toList, .word "UPDATE".toList] " DO UPDATE ".toList = true := by
    decide
  exact .congr (Sql.lexemes_sql_append " DO UPDATE " "SET " _)
    ⟨Sql.apart_of_opened (by decide), set.led doing⟩

theorem Sql.Clauses.upsert {c : Context} {conflict : Option OnConflict}
    (marked : SpelledMarked spell) (targeted : c.dialect.upsertStyle = .onConflict)
    (upserts : Upserts c conflict s) :
    ∃ lead, lead.count .group = 0 ∧
      s.Clauses spell lead (conflict.toList.flatMap OnConflict.headings) := by
  cases upserts with
  | none => exact ⟨[], rfl, .nil⟩
  | @skip target columns _ written =>
    obtain ⟨apart, marks, shown⟩ := renderTarget_shows marked.1 written
    have nothing : (sql " DO NOTHING").Clauses spell
        [.word "DO".toList, .word "NOTHING".toList] [] :=
      .text (by decide) (by decide) (by decide) (by decide)
    exact ⟨_, by decide, .conflict apart shown nothing⟩
  | @update target columns updates _ written aimed full styled =>
    obtain ⟨apart, marks, shown⟩ := renderTarget_shows marked.1 written
    rw [List.append_assoc]
    exact ⟨_, by decide, .conflict apart shown (.doUpdate marked c full)⟩
  | ignore keyed => rw [targeted] at keyed; cases keyed
  | duplicate keyed => rw [targeted] at keyed; cases keyed

theorem Mark.is_on_of_listed {m : Mark} (listed : m = .comma ∨ m.isPlain = true) :
    m.is "ON" = false := by
  rcases listed with rfl | plain
  · rfl
  · refine beq_eq_false_iff_ne.mpr ?_
    rintro rfl
    revert plain
    decide

theorem Sql.Lists.projection {parts : List Sql} (each : ∀ part ∈ parts, part.Hushed spell 0 0) :
    ∃ commas, (TypedSql.projection parts).Lists spell commas := by
  unfold TypedSql.projection
  split
  · have star : (sql "*").Hushed spell 0 0 := .text (by decide)
    exact ⟨0, star.lists⟩
  · exact ⟨_, .commaList each⟩

theorem Sql.Opens.distinctOn (inert : SpelledInert spell) {fields : Sql} (phrase : Phrase fields) :
    (sql "DISTINCT ON (" ++ fields ++ sql ") ").Opens spell .distinct
      [.word "ON".toList, .group] := by
  have opening : skim 0 ("DISTINCT ON (".toList.foldr gather []) =
      ([.word Opening.distinct.word.toList, .word "ON".toList, .group], 1) := by decide
  have closing : skim 1 (") ".toList.foldr gather []) = ([], 0) := by decide
  exact ⟨.closed (by decide) (by decide),
    Sql.skim_enclosed inert (by decide) opening phrase (by decide) closing, by decide⟩

theorem Sql.Outlined.selection (inert : SpelledInert spell) {d : Dialect} {distinct : Bool}
    {on : List Field} {written columns : Sql} {commas : Nat}
    (made : renderDistinct d distinct on = .ok written)
    (one : distinct = true → on = []) (listed : columns.Lists spell commas)
    (table : Table) :
    ∃ lead, (sql "SELECT " ++ written ++ columns ++ sql " FROM " ++ table.render).Outlined spell lead
      ((if distinct then [.distinct] else []) ++ if on.isEmpty then [] else [.distinctOn]) := by
  obtain ⟨marks, shown, each, -⟩ := listed
  obtain ⟨marks', shown', -⟩ : ∃ marks, table.render.Shows spell marks ∧ _ :=
    table.hushed.exists_shows
  have from_ : stays [.word "FROM".toList] " FROM ".toList = true := by decide
  have body := shown.linked from_ (by decide) shown'
  have select : stays [.word "SELECT".toList] "SELECT ".toList = true := by decide
  have apart : (marks ++ ([Mark.word "FROM".toList] ++ marks')).head?.any (Mark.is "ON") = false := by
    cases marks with
    | nil => rfl
    | cons m rest => exact Mark.is_on_of_listed (each m List.mem_cons_self)
  rcases renderDistinct_ok made with ⟨given, rfl⟩ | ⟨plain, rfl, rfl⟩ |
    ⟨plain, full, fields, rendered, rfl⟩
  · obtain rfl := one given
    have begun : opens .distinct [] "DISTINCT ".toList = true := by decide
    have headed :
        heading? (.distinct, [] ++ (marks ++ ([Mark.word "FROM".toList] ++ marks')) ++ []) =
        some .distinct := by
      rw [List.nil_append, List.append_nil, heading?, apart]
      rfl
    have whole := (Sql.Outlined.opened (.text begun) body .nil headed).led select
    rw [if_pos given, if_pos List.isEmpty_nil]
    exact ⟨_, by simpa only [List.append_assoc, List.append_nil] using whole⟩
  · rw [if_neg (ne_true_of_eq_false plain), if_pos List.isEmpty_nil]
    exact ⟨_, by simpa only [List.append_assoc, List.nil_append] using (body.led select).outlined⟩
  · have begun : (sql "DISTINCT ON (" ++ fields ++ sql ") ").Opens spell .distinct
        [.word "ON".toList, .group] := .distinctOn inert (.fields rendered)
    have headed : heading? (.distinct,
        [Mark.word "ON".toList, .group] ++ (marks ++ ([Mark.word "FROM".toList] ++ marks')) ++ []) =
          some .distinctOn := rfl
    have whole := (Sql.Outlined.opened begun body .nil headed).led select
    rw [if_neg (ne_true_of_eq_false plain), if_neg (mt List.isEmpty_iff.mp full)]
    exact ⟨_, by simpa only [List.append_assoc, List.append_nil, List.nil_append] using whole⟩

theorem Sql.Outlined.target (leading : leadsIn pre.toList 0 0 = true) (table : Table) :
    ∃ lead, (sql pre ++ table.render).Outlined spell lead [] := by
  have whole : (sql pre ++ table.render).Hushed spell 0 0 := .led leading table.hushed
  obtain ⟨marks, shown, -⟩ := whole.exists_shows
  exact ⟨marks, shown.outlined⟩

theorem Sql.Clauses.assignments {sets : List (Assignment × Sql)} (assigned : sets ≠ [])
    (each : ∀ a ∈ sets, a.2.Hushed spell 0 0) :
    (sql " SET " ++ Sql.commaList
      ((sortAssignments (sets.map fun a => (a.1.field, a.2))).map assignmentSql)).Clauses spell []
        [.set sets.length] := by
  have entries : ∀ part ∈ (sortAssignments (sets.map fun a => (a.1.field, a.2))).map assignmentSql,
      part.Hushed spell 0 0 := by
    intro part member
    obtain ⟨assignment, inside, rfl⟩ := List.mem_map.mp member
    obtain ⟨a, among, rfl⟩ := List.mem_map.mp (mem_sortAssignments.mp inside)
    exact .entry a.1.field.name (each a among)
  obtain ⟨marks, shown, -, counted⟩ := Sql.Lists.commaList entries
  have length : (sortAssignments (sets.map fun a => (a.1.field, a.2))).length = sets.length := by
    simp [sortAssignments]
  have some : 0 < sets.length := List.length_pos_iff.mpr assigned
  have begun : opens .set [] " SET ".toList = true := by decide
  rw [List.length_map, length] at counted
  exact .single (by decide) begun shown (by simp [heading?, counted, Nat.sub_add_cancel some])

theorem Sql.Clauses.tuples (inert : SpelledInert spell) (c : Context) (rows : List Row)
    {lead : List Mark} (next : t.Clauses spell lead headings) (none : lead.count .group = 0) :
    (sql " VALUES " ++ Sql.commaList (rows.map (tuple c)) ++ t).Clauses spell []
      (.values rows.length :: headings) := by
  have each : ∀ part ∈ rows.map (tuple c), part.Shows spell [.group] := by
    intro part member
    obtain ⟨row, -, rfl⟩ := List.mem_map.mp member
    have opening : skim 0 ("(".toList.foldr gather []) = ([.group], 1) := by decide
    have closing : skim 1 (")".toList.foldr gather []) = ([], 0) := by decide
    have values : Phrase (Sql.commaList (row.values.map c.placeholder)) :=
      .commaList fun p inside => by
        obtain ⟨param, -, rfl⟩ := List.mem_map.mp inside
        exact .placeholder c param
    exact ⟨Sql.skim_enclosed inert (by decide) opening values (by decide) closing, by decide⟩
  obtain ⟨marks, shown, counted⟩ := Sql.Shows.groups each
  have begun : opens .values [] " VALUES ".toList = true := by decide
  rw [List.length_map] at counted
  exact .opened (by decide) begun shown next (by simp [heading?, counted, none])

end Parts

section Queries
variable {c : Context} {q : Query} {s : Sql} {spell : Hole → String}

/-- The text of a query for PostgreSQL says what its clauses have to say, and nothing else. -/
theorem Query.outlined (marked : SpelledMarked spell) (postgres : c.dialect = .postgres)
    (made : Renders c (.query q) s) : ∃ lead, s.Outlined spell lead q.headings := by
  have inert := marked.1
  cases made with
  | @select _ _ distinct lock groupBy fields joins filter having items operation clauses rules
      distinctly fieldsListed projects locks joinsListed joined filterGiven filters groups
      havingGiven havings itemsListed order =>
    rw [postgres] at locks
    obtain ⟨columns, listed⟩ := Sql.Lists.projection
      (forall_snd fun f member => (projects f member).hushed marked)
    obtain ⟨lead, head⟩ := Sql.Outlined.selection inert distinctly
      (q.distinct_of_checkSelect rules) listed q.table
    obtain ⟨unhinted, locked⟩ := Sql.Clauses.lock locks
    have sorted : (orderClause (items.map Prod.snd)).Clauses spell [] _ :=
      .orderClause fun o member => (order o member).hushed marked
    have grouped := ((head.append (.joins marked joined)).append (.filter marked filters)).append
      (.groupBy groups)
    have whole := (((grouped.append (.having marked havings)).append sorted).append
      (.pagination q.limit q.offset (!q.orderBy.isEmpty))).append locked
    refine ⟨lead, ?_⟩
    rw [selectText, Query.headings_eq clauses, operation, postgres, unhinted, List.append_nil]
    simpa [Clause.written, Operation.clauses, Clause.headings, joinsListed, filterGiven, havingGiven,
      itemsListed] using whole
  | @count _ _ joins filter operation clauses joinsListed joined filterGiven filters =>
    have counting : leadsIn "SELECT COUNT(*) FROM ".toList 0 0 = true := by decide
    obtain ⟨lead, head⟩ := Sql.Outlined.target counting q.table
    have whole := (head.append (.joins marked joined)).append (.filter marked filters)
    refine ⟨lead, ?_⟩
    rw [countText, Query.headings_eq clauses, operation]
    simpa [Clause.written, Operation.clauses, Clause.headings, joinsListed, filterGiven] using whole
  | @insert _ _ first output upsert returning operation clauses shaped styled outputs upserts
      returns =>
    rw [insertText, postgres]
    rw [postgres] at outputs returns
    obtain rfl : [] = output := renderOutput_postgres outputs
    have into : (sql "INSERT INTO " ++ q.table.render ++ sql " (" ++
        Sql.commaList (first.names.map fun column => [.name .field column]) ++ sql ")").Hushed
          spell 0 0 :=
      .linkedClosed (p := 0) inert (.led (by decide) q.table.hushed) (by decide) (by decide)
        (.names first.names) (by decide)
    obtain ⟨lead, shown, -⟩ := into.exists_shows
    obtain ⟨before, none, upserted⟩ := Sql.Clauses.upsert marked (by rw [postgres]; rfl) upserts
    have whole := (shown.outlined.append (.tuples inert c q.rows upserted none)).append
      (.returning returns)
    have full : q.rows.isEmpty = false := by
      simpa using List.ne_nil_of_mem (checkRows_ok shaped).1
    refine ⟨lead, ?_⟩
    rw [Query.headings_eq clauses, operation]
    simpa [Clause.written, Operation.clauses, Clause.headings, full, insertKeyword,
      Dialect.upsertStyle] using whole
  | @update _ _ output returning sets filter operation clauses assigned setsListed values plain
      unrepeated outputs filterGiven filters returns =>
    rw [postgres] at outputs returns
    obtain rfl : [] = output := renderOutput_postgres outputs
    have updating : leadsIn "UPDATE ".toList 0 0 = true := by decide
    obtain ⟨lead, head⟩ := Sql.Outlined.target updating q.table
    have set := Sql.Clauses.assignments assigned fun a member => (values a member).hushed marked
    have whole := ((head.append set).append (.filter marked filters)).append (.returning returns)
    refine ⟨lead, ?_⟩
    rw [updateText, Query.headings_eq clauses, operation]
    simpa [Clause.written, Operation.clauses, Clause.headings, setsListed, assigned, filterGiven]
      using whole
  | @delete _ _ output returning filter operation clauses outputs filterGiven filters returns =>
    rw [postgres] at outputs returns
    obtain rfl : [] = output := renderOutput_postgres outputs
    have deleting : leadsIn "DELETE FROM ".toList 0 0 = true := by decide
    obtain ⟨lead, head⟩ := Sql.Outlined.target deleting q.table
    have whole := (head.append (.filter marked filters)).append (.returning returns)
    refine ⟨lead, ?_⟩
    rw [deleteText, Query.headings_eq clauses, operation]
    simpa [Clause.written, Operation.clauses, Clause.headings, filterGiven] using whole

end Queries

end TypedSql
