import TypedSql.Proofs.Render.Embedded
import TypedSql.Proofs.Render.Outlined

namespace TypedSql

theorem Lexeme.reads_of_bare {x : Lexeme} (bare : x.isBare = true) (word : String)
    (spelled : isSpelled word.toList = true) : x.reads word = false := by
  cases x with
  | word w => exact beq_eq_false_iff_ne.mpr (ne_of_bare bare spelled).symm
  | _ => rfl

theorem isQueryWord_of_bare {x : Lexeme} (bare : x.isBare = true) : x.isQueryWord = false := by
  have none : queryWords.find? (fun entry => x.reads entry.1) = none := by
    refine List.find?_eq_none.mpr fun entry member => ?_
    have each : queryWords.all (fun entry => isSpelled entry.1.toList) = true := by decide
    simp [Lexeme.reads_of_bare bare entry.1 (List.all_eq_true.mp each entry member)]
  simp [Lexeme.isQueryWord, Lexeme.queryWord?, none]

theorem isBreak_of_isQueryWord {x : Lexeme} (word : x.isQueryWord = true) : isBreak x = true := by
  simp [isBreak, isSeam, word]

theorem isBreak_of_bare {x : Lexeme} (bare : x.isBare = true) : isBreak x = false := by
  have comma : (x == .sign ',') = false := by
    refine beq_eq_false_iff_ne.mpr ?_
    rintro rfl
    cases bare
  have silent := Lexeme.reads_of_bare bare
  simp [isBreak, isSeam, isQueryWord_of_bare bare, comma, Lexeme.isDirection,
    silent "AS" (by decide), silent "ASC" (by decide), silent "DESC" (by decide),
    silent "DISTINCT" (by decide)]

theorem selectless_of_bare {ls : List Lexeme} (bare : Bare ls) : selectless ls = true := by
  refine List.all_eq_true.mpr fun x member => ?_
  rw [Lexeme.reads_of_bare (bare x member) "SELECT" (by decide)]
  rfl

section Leaves
variable {d : Dialect} {spell : Hole → String} {p : Nat} {s : Sql}

theorem Sql.Embeds.of_bare (bare : Bare (s.lexemes spell)) : s.Embeds isBreak spell p p ∅ := by
  have bare : Bare (s.visible spell) := fun x member => bare x (mem_visible member)
  exact ⟨still_of_bare (fun x => isBreak_of_bare) bare, .of_selectless (selectless_of_bare bare)⟩

theorem Sql.Embeds.placeholder (marked : SpelledMarked spell) (c : Context) (param : Param) :
    (c.placeholder param).Embeds isBreak spell p p ∅ := by
  obtain ⟨x, lexed, bare⟩ := Sql.lexemes_hole marked ⟨c.depth, param⟩
  refine .of_bare ?_
  rw [Context.placeholder, lexed]
  exact .single bare

theorem Sql.Embeds.number (n : Nat) : (sql (toString n)).Embeds isBreak spell p p ∅ := by
  refine .of_bare ?_
  rw [Sql.lexemes_sql]
  exact .digits n

theorem Field.embeds {f : Field} (made : f.render d = .ok s) : s.Embeds isBreak spell p p ∅ := by
  obtain ⟨steps, walked, rfl⟩ := Field.render_ok_iff.mp made
  have stepped : Steps spell steps := Steps.pathSteps walked
  refine .of_bare ?_
  rw [Sql.lexemes_append stepped.2]
  exact f.bare_column.append stepped.1

theorem Operand.embeds (marked : SpelledMarked spell) {c : Context} {o : Operand}
    (made : (o.render c).result = .ok s) : s.Embeds isBreak spell p p ∅ := by
  cases o with
  | field f =>
    simp only [Operand.render, Render.result_ofExcept] at made
    exact Field.embeds made
  | param param =>
    simp only [Operand.render, Context.param_ok_iff] at made
    rw [← made.2]
    exact .placeholder marked c param

theorem Sql.Embeds.aggregateField {kind : AggregateKind} {f : Option Field} {missing : Missing}
    {column : Option Sql} {other : String} (made : TypedSql.aggregateField d kind f missing = .ok column)
    (checked : embedsText isBreak other.toList 0 0 = true) :
    (column.getD (sql other)).Embeds isBreak spell 0 0 ∅ := by
  rcases aggregateField_ok made with ⟨-, rfl⟩ | ⟨g, rendered, -, rfl, columned⟩
  · exact .text checked
  · exact Field.embeds columned

theorem Table.embeds (t : Table) : t.render.Embeds isBreak spell p p ∅ := .of_bare t.bare_render

end Leaves

section Sides
variable {d : Dialect} {spell : Hole → String} {s left right : Sql} {asked others : Set Query}
  {stop : Lexeme → Bool}

theorem Sql.visible_parenthesised :
    (Sql.parenthesised s).visible spell = .sign '(' :: (s.visible spell ++ [Lexeme.sign ')']) := by
  rw [Sql.parenthesised, Sql.visible_closed (by decide), Sql.visible_led (by decide)]
  rfl

def Sql.Headed (keyword : String) (spell : Hole → String) (s : Sql) (asked : Set Query) : Prop :=
  ∃ rest, s.visible spell = .word keyword.toList :: rest ∧ still noStop 0 rest = some 0 ∧
    Houses spell rest asked

def heads (keyword : String) (cs : List Char) : Bool :=
  let ls := visible (cs.foldr gather [])
  closed cs && ls.head? == some (.word keyword.toList) && still noStop 0 ls.tail == some 0 &&
    selectless ls.tail

theorem Sql.Headed.led {keyword pre : String} (leading : heads keyword pre.toList = true)
    (inner : s.Embeds noStop spell 0 0 asked) : (sql pre ++ s).Headed keyword spell asked := by
  simp only [heads, Bool.and_eq_true, beq_iff_eq] at leading
  obtain ⟨⟨⟨ends, first⟩, settles⟩, none⟩ := leading
  rw [Sql.Headed, Sql.visible_led ends]
  generalize TypedSql.visible (pre.toList.foldr gather []) = ls at *
  obtain ⟨more, rfl⟩ := List.head?_eq_some_iff.mp first
  have chained := Sql.Embeds.chained ⟨settles, Houses.of_selectless none⟩ inner
  rw [Set.empty_union] at chained
  exact ⟨_, rfl, chained⟩

theorem Sql.Headed.congr {keyword : String} (same : asked = others)
    (headed : s.Headed keyword spell asked) : s.Headed keyword spell others := same ▸ headed

theorem Sql.Headed.contains {keyword : String} (headed : s.Headed keyword spell asked) :
    still noStop 0 (s.visible spell) = some 0 ∧ Contains spell (s.visible spell) asked := by
  obtain ⟨rest, text, settles, houses⟩ := headed
  have same : nestedQueries (s.visible spell) = nestedQueries rest := by
    rw [text, nestedQueries, if_neg (by simp)]
  refine ⟨by rw [text]; exact settles, ?_, ?_⟩
  · rw [same]
    exact houses.told
  · rw [same]
    exact houses.shown

theorem Sql.Headed.append {keyword : String} {t : Sql} (headed : s.Headed keyword spell asked)
    (apart : Apart (t.lexemes spell)) (more : t.Embeds noStop spell 0 0 others) :
    (s ++ t).Headed keyword spell (asked ∪ others) := by
  obtain ⟨rest, text, inner⟩ := headed
  refine ⟨rest ++ t.visible spell, ?_, Sql.Embeds.chained inner more⟩
  rw [Sql.visible_append apart, text]
  rfl

theorem Sql.Headed.behind {keyword : String} {words : List Lexeme}
    (first : words.head?.any (fun x => !x.reads "SELECT") = true)
    (plain : ∀ x ∈ words, x ≠ .sign '(' ∧ x ≠ .sign ')') (headed : s.Headed keyword spell asked) :
    still noStop 0 (words ++ s.visible spell) = some 0 ∧
      Houses spell (words ++ s.visible spell) asked := by
  obtain ⟨settles, inner⟩ := headed.contains
  obtain ⟨rest, text, -, houses⟩ := headed
  have same (more : List Lexeme) : nestedQueries (words ++ s.visible spell ++ more) =
      nestedQueries (rest ++ more) := by
    have unopened : ∀ x ∈ words ++ [Lexeme.word keyword.toList], x ≠ .sign '(' := by
      intro x member
      rcases List.mem_append.mp member with member | member
      · exact (plain x member).1
      · rintro rfl
        simp at member
    have passed : nestedQueries (words ++ [Lexeme.word keyword.toList] ++ (rest ++ more)) = _ :=
      nestedQueries_of_unopened unopened
    rw [text]
    simpa using passed
  have begins : selects (words ++ s.visible spell) = false := by
    obtain ⟨x, words, rfl⟩ : ∃ x more, words = x :: more := by
      cases words with
      | nil => cases first
      | cons x words => exact ⟨x, words, rfl⟩
    simpa [selects] using first
  have alone : nestedQueries (words ++ s.visible spell) = nestedQueries rest := by
    simpa using same []
  constructor
  · have still : still noStop 0 words = some 0 :=
      still_of_unbracketed fun x member => ⟨rfl, plain x member⟩
    rw [still_append, still]
    exact settles
  · exact {
      told := by rw [alone]; exact houses.told
      shown := by rw [alone]; exact houses.shown
      begins := begins
      parted := by
        intro more other
        rw [same, alone]
        exact houses.parted more other }

theorem Sql.Headed.parenthesised {own : Set Query} (headed : s.Headed "SELECT" spell asked)
    (told : (page (s.visible spell)).Admitted true ∨ ∃ q ∈ own, q.Writes spell (s.visible spell))
    (shown : ∀ q ∈ own, q.Writes spell (s.visible spell)) :
    (Sql.parenthesised s).Embeds isBreak spell 0 0 (own ∪ asked) := by
  obtain ⟨settles, inner⟩ := headed.contains
  have query : selects (s.visible spell) = true := by
    obtain ⟨rest, text, -⟩ := headed
    rw [text]
    rfl
  rw [Sql.Embeds, Sql.visible_parenthesised]
  exact ⟨still_bracketed (by decide) settles, .bracketed query settles inner told shown⟩

theorem Sql.Embeds.jsonRows (argument : right.Embeds isBreak spell 0 0 others) :
    (Sql.parenthesised (sql "SELECT value FROM " ++ (sql "OPENJSON(" ++ right ++ sql ")"))).Embeds
      isBreak spell 0 0 others := by
  have source : (sql "OPENJSON(" ++ right ++ sql ")").Embeds Lexeme.isQueryWord spell 0 0 others :=
    .enclosed (by decide) argument (by decide)
  have settles : still Lexeme.isQueryWord 0 [.word "value".toList] = some 0 := by decide
  have admitted : (page ((sql "SELECT value FROM " ++ (sql "OPENJSON(" ++ right ++ sql ")")).visible
      spell)).Admitted true := by
    have falls : FallsInto _ [(.select, _), (.source, _)] :=
      .cons (x := .word "SELECT".toList) (by decide) settles
        (.cons (x := .word "FROM".toList) (by decide) source.1 .nil)
    rw [List.append_nil] at falls
    rw [Sql.visible_led (by decide)]
    exact Page.admitted_of_tail falls.tail_page
  have headed : (sql "SELECT value FROM " ++ (sql "OPENJSON(" ++ right ++ sql ")")).Headed "SELECT"
      spell others := .led (by decide) (source.weaken (by simp [noStop]))
  rw [← Set.empty_union others]
  exact headed.parenthesised (.inl admitted) (by simp)

theorem Sql.Embeds.among {mid : String} (link : String) (begins : opened mid.toList = true)
    (ends : TypedSql.closed mid.toList = true) (linking : embedsOut isBreak link.toList 0 0 = true)
    (ends' : TypedSql.closed link.toList = true)
    (same : TypedSql.visible (mid.toList.foldr gather []) =
      TypedSql.visible (link.toList.foldr gather []) ++
        TypedSql.visible ("(SELECT value FROM OPENJSON(".toList.foldr gather []))
    (first : left.Embeds isBreak spell 0 0 asked) (second : right.Embeds isBreak spell 0 0 others) :
    (left ++ sql mid ++ right ++ sql "))").Embeds isBreak spell 0 0 (asked ∪ others) := by
  have spaced := first.linked linking ends' second.jsonRows
  simp only [embedsOut, Bool.and_eq_true] at linking
  rw [Sql.Embeds, Sql.visible_linked linking.1 ends', Sql.visible_parenthesised,
    Sql.visible_led (by decide), Sql.visible_closed (by decide), Sql.visible_led (by decide)] at spaced
  rw [Sql.Embeds, Sql.visible_closed (by decide), Sql.visible_linked begins ends, same]
  simp only [List.append_assoc] at spaced ⊢
  exact spaced

theorem Sql.Embeds.compareSides (sqlServer : d = .sqlServer) (op : Operator)
    (first : left.Embeds isBreak spell 0 0 asked) (second : right.Embeds isBreak spell 0 0 others) :
    (compareSides d left op right).Embeds isBreak spell 0 0 (asked ∪ others) := by
  subst sqlServer
  cases op
  case isIn =>
    exact first.among " IN " (by decide) (by decide) (by decide) (by decide) (by decide)
      second
  case notIn =>
    exact first.among " NOT IN " (by decide) (by decide) (by decide) (by decide)
      (by decide) second
  case iLike | notILike =>
    exact .paired (k := 0) (by decide) first (by decide) (by decide) second (by decide)
  all_goals exact first.linked (by decide) (by decide) second

theorem Sql.Embeds.call {name : String} (leading : embedsIn isBreak (name ++ "(").toList 0 1 = true)
    {argument : Option Sql} (first : left.Embeds isBreak spell 0 0 ∅)
    (second : ∀ s ∈ argument, s.Embeds isBreak spell 0 0 ∅) :
    (Dialect.call name left argument).Embeds isBreak spell 0 0 ∅ := by
  cases argument with
  | none => exact .enclosed leading first (by decide)
  | some s =>
    rw [← Set.empty_union ∅]
    exact .paired (k := 0) leading first (by decide) (by decide) (second s rfl) (by decide)

theorem Sql.Embeds.mathCall (function : MathFunction) {argument : Option Sql}
    (first : left.Embeds isBreak spell 0 0 ∅)
    (second : ∀ s ∈ argument, s.Embeds isBreak spell 0 0 ∅) :
    (d.mathCall function left argument).Embeds isBreak spell 0 0 ∅ := by
  have zero : (sql "0").Embeds isBreak spell 0 0 ∅ := .text (by decide)
  unfold Dialect.mathCall
  split
  · exact .call (by decide) first (by simp)
  · exact .call (by decide) first (by simpa using zero)
  · exact .call (by cases function <;> decide) first second

theorem embedsOut_castType {type : CastType} {name : String} (typed : d.castType type = .ok name) :
    embedsOut isBreak (" AS " ++ name ++ ")").toList 1 0 = true :=
  Dialect.castType_all (fun name => embedsOut isBreak (" AS " ++ name ++ ")").toList 1 0)
    (by intro d type; cases d <;> cases type <;> decide) typed

theorem Sql.Embeds.binary {op : BinaryOp} (made : d.binary left op right = .ok s)
    (first : left.Embeds isBreak spell 0 0 ∅) (second : right.Embeds isBreak spell 0 0 ∅) :
    s.Embeds isBreak spell 0 0 ∅ := by
  rw [← Set.empty_union ∅]
  rcases Dialect.binary_ok made with rfl | rfl | rfl
  · exact .paired (k := 0) (by decide) first (by decide) (by decide) second (by decide)
  · exact first.linked (by decide) (by decide) second
  · exact first.linked (by cases op <;> decide) (by cases op <;> decide) second

theorem Sql.Embeds.commaList {parts : List Sql} (each : ∀ s ∈ parts, s.Embeds isBreak spell 0 0 ∅) :
    (Sql.commaList parts).Embeds Lexeme.isQueryWord spell 0 0 ∅ := by
  have alone : parts = (parts.map fun s => (s, s)).map Prod.snd := by simp [Function.comp_def]
  have nothing : askedIn (fun _ : Sql => (∅ : Set Query)) ((parts.map fun s => (s, s)).map Prod.fst) =
      ∅ := by simp
  rw [alone, ← nothing]
  refine .join (by decide) (by decide) fun x member => ?_
  obtain ⟨s, inside, rfl⟩ := List.mem_map.mp member
  exact (each s inside).weaken fun x => isBreak_of_isQueryWord

theorem renderFields_embeds {fields : List Field} (made : renderFields fields d = .ok s) :
    s.Embeds Lexeme.isQueryWord spell 0 0 ∅ := by
  obtain ⟨pairs, rfl, rfl, each⟩ := renderFields_ok made
  exact .commaList (forall_snd fun p member => Field.embeds (each p member))

theorem Sql.Embeds.shifted (marked : SpelledMarked spell) (w : WindowCall) (c : Context)
    (first : s.Embeds isBreak spell 0 0 ∅) :
    (Sql.commaList (s :: w.shifts c)).Embeds Lexeme.isQueryWord spell 0 0 ∅ := by
  refine .commaList (List.forall_mem_cons.mpr ⟨first, ?_⟩)
  have placeholder (p : Param) : (c.placeholder p).Embeds isBreak spell 0 0 ∅ :=
    .placeholder marked c p
  have one : (sql "1").Embeds isBreak spell 0 0 ∅ := .text (by decide)
  unfold WindowCall.shifts
  cases w.offset <;> cases w.fallback <;> simp [placeholder, one]

theorem WindowCall.Calls.embeds {c : Context} {w : WindowCall} {call : Sql}
    (marked : SpelledMarked spell) (calls : w.Calls c call) : call.Embeds isBreak spell 0 0 ∅ := by
  cases calls with
  | ranking checked ranks bare =>
    rcases ranks with ranks | ranks | ranks <;> rw [ranks] <;> exact .text (by decide)
  | @ntile bucket checked tiles bare given styled =>
    have argument : (c.placeholder bucket).Embeds isBreak spell 0 0 ∅ := .placeholder marked c bucket
    exact .enclosed (by decide) argument (by decide)
  | @shift f column checked shifted given columned styled =>
    refine .enclosed ?_ (.shifted marked w c (Field.embeds columned)) (by decide)
    rcases shifted with shifted | shifted <;> rw [shifted] <;> decide
  | @edge f column checked edged given columned =>
    have column : column.Embeds isBreak spell 0 0 ∅ := Field.embeds columned
    refine .enclosed ?_ column (by decide)
    rcases edged with edged | edged <;> rw [edged] <;> decide
  | @aggregate kind column checked aggregates columned =>
    have column : (column.getD (sql "*")).Embeds isBreak spell 0 0 ∅ :=
      .aggregateField columned (by decide)
    exact .enclosed (by cases kind <;> decide) column (by decide)

theorem Sql.Embeds.subqueryLeft {c : Context} {op : Operator} {field : Option Field}
    (started : subqueryLeft c field op = .ok left) : left.Embeds isBreak spell 0 0 ∅ := by
  rcases subqueryLeft_ok started with ⟨-, existence, rfl⟩ | ⟨g, column, -, columned, rfl⟩
  · exact .text (by cases op <;> decide)
  · exact (Field.embeds columned).closed (by cases op <;> decide)

end Sides
end TypedSql
