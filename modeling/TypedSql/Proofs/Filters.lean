import Mathlib.Algebra.Ring.Int.Defs
import TypedSql.Proofs.Precedence
import TypedSql.Proofs.Render.Weighed
import TypedSql.Proofs.Sql.Tally

namespace TypedSql

def AggregateKind.tallied : AggregateKind → TallyFunction
  | .sum => .sum
  | .avg => .avg
  | .min => .min
  | .max => .max
  | .count | .countDistinct => .count

def AggregateKind.isDistinct : AggregateKind → Bool
  | .countDistinct => true
  | _ => false

def Dialect.tally (d : Dialect) (text : String) : Option Tally :=
  (d.lex text.toList).bind fun tokens => readTally d (lexemes tokens)

example : Dialect.sqlite.tally "COUNT(*) FILTER (WHERE \x22a\x22 = :n)" =
    some ⟨.count, false, none, some "\x22a\x22 = :n"⟩ := by
  decide +kernel

section Reading
variable {d : Dialect} {spell : Hole → String} {kind : AggregateKind} {f : Option Field}
  {column : Option Sql} {condition s : Sql}

theorem AggregateKind.lexemes_opening (kind : AggregateKind) :
    (aggregateOpening kind).toList.foldr gather [] =
        .word kind.functionName.toList :: .sign '(' ::
          (if kind.isDistinct then [.word "DISTINCT".toList, .sign ' '] else []) ∧
      tallyFunction? kind.functionName.toList = some kind.tallied := by
  cases kind <;> decide

theorem AggregateKind.lexemes_choice (kind : AggregateKind) :
    (aggregateOpening kind ++ "CASE WHEN ").toList.foldr gather [] =
      .word kind.functionName.toList :: .sign '(' ::
        ((if kind.isDistinct then [.word "DISTINCT".toList, .sign ' '] else []) ++
          [.word "CASE".toList, .sign ' ', .word "WHEN".toList, .sign ' ']) := by
  cases kind <;> decide

theorem afterWord_of_bare {word : String} {ls : List Lexeme} (bare : ∀ x ∈ ls, x.isBare = true)
    (spelled : isSpelled word.toList = true) : afterWord word ls = none := by
  cases ls with
  | nil => rfl
  | cons x ls =>
    cases x with
    | word w => exact if_neg fun same => ne_of_bare (bare _ List.mem_cons_self) spelled same.symm
    | _ => rfl

theorem Field.readArgument_eq {f : Field} (made : f.render d = .ok s) (spell : Hole → String)
    (function : TallyFunction) (distinct : Bool) :
    readArgument d function distinct (s.lexemes spell) =
      some (some (.value (s.write d spell))) := by
  obtain ⟨steps, walked, rfl⟩ := Field.render_ok_iff.mp made
  have stepped : Steps spell steps := Steps.pathSteps walked
  have bare : Bare ((f.column ++ steps).lexemes spell) := by
    rw [Sql.lexemes_append stepped.2]
    exact f.bare_column.append stepped.1
  have named : (f.column ++ steps).lexemes spell ≠ [.sign '*'] := by
    rw [Sql.lexemes_append stepped.2, Field.lexemes_column]
    obtain ⟨n, qualifier, path⟩ := f
    rcases qualifier with _ | table | letter <;> simp [columnLexemes]
  have noChoice : readChoice d ((f.column ++ steps).lexemes spell) = none := by
    rw [readChoice, afterWord_of_bare bare (by decide)]
    rfl
  rw [readArgument, if_neg named, noChoice, Sql.spelled_lexemes]

theorem aggregateField_cases (columned : aggregateField d kind f .aggregateField = .ok column) :
    (f = none ∧ column = none ∧ kind = .count) ∨
      ∃ g s, f = some g ∧ column = some s ∧ g.render d = .ok s := by
  rcases aggregateField_ok columned with ⟨rfl, rfl⟩ | made
  · refine .inl ⟨rfl, rfl, ?_⟩
    cases kind <;> simp_all [aggregateField]
  · exact .inr made

theorem readTally_native (columned : aggregateField d kind f .aggregateField = .ok column)
    (weighs : condition.Weighs spell {} {}) :
    readTally d ((sql (aggregateOpening kind) ++ column.getD (sql "*") ++ sql ") FILTER (WHERE " ++
        condition ++ sql ")").lexemes spell) =
      some ⟨kind.tallied, kind.isDistinct, column.map fun s => .value (s.write d spell),
        some (condition.write d spell)⟩ := by
  obtain ⟨opening, named⟩ := kind.lexemes_opening
  have ends : closed (aggregateOpening kind).toList = true := by cases kind <;> decide
  have filter : ") FILTER (WHERE ".toList.foldr gather [] =
      .sign ')' :: .sign ' ' :: .word "FILTER".toList :: .sign ' ' :: .sign '(' ::
        .word "WHERE".toList :: [.sign ' '] := by decide
  have bracket : ")".toList.foldr gather [] = [.sign ')'] := by decide
  have filtered := readFilter_eq (d := d) weighs
  rw [Sql.spelled_lexemes] at filtered
  rw [Sql.lexemes_opened (by decide), Sql.lexemes_linked (by decide) (by decide),
    Sql.lexemes_closed ends, opening, filter, bracket]
  simp only [List.cons_append, List.append_assoc, List.nil_append]
  rcases aggregateField_cases columned with ⟨rfl, rfl, rfl⟩ | ⟨g, s, rfl, rfl, made⟩
  · have star : (sql "*").lexemes spell = [.sign '*'] := by
      rw [Sql.lexemes_sql]
      decide
    have taken : readArgument d .count false [.sign '*'] = some none := by
      simp [readArgument]
    rw [Option.getD_none, star]
    exact readTally_eq named (by decide) taken filtered
  · have taken := Field.readArgument_eq made spell kind.tallied kind.isDistinct
    exact readTally_eq named (Field.weighed made) taken filtered

theorem readTally_rewritten (columned : aggregateField d kind f .aggregateField = .ok column)
    (weighs : condition.Weighs spell {} {}) :
    readTally d ((sql (aggregateOpening kind ++ "CASE WHEN ") ++ condition ++ sql " THEN " ++
        column.getD (sql "1") ++ sql " END)").lexemes spell) =
      some ⟨kind.tallied, kind.isDistinct, some (.chosen (condition.write d spell)
        ((column.getD (sql "1")).write d spell)), none⟩ := by
  obtain ⟨-, named⟩ := kind.lexemes_opening
  have ends : closed (aggregateOpening kind ++ "CASE WHEN ").toList = true := by
    cases kind <;> decide
  have middle : " THEN ".toList.foldr gather [] = [.sign ' ', .word "THEN".toList, .sign ' '] := by
    decide
  have closing : " END)".toList.foldr gather [] = [.sign ' ', .word "END".toList, .sign ')'] := by
    decide
  have value : (column.getD (sql "1")).Weighs spell {} {} := by
    rcases aggregateField_cases columned with ⟨-, rfl, -⟩ | ⟨g, s, -, rfl, made⟩
    · exact .text (by decide)
    · exact Field.weighed made
  have taken : readArgument d kind.tallied kind.isDistinct (choiceLexemes (condition.lexemes spell)
      ((column.getD (sql "1")).lexemes spell)) = some (some (.chosen (condition.write d spell)
        ((column.getD (sql "1")).write d spell))) := by
    rw [readArgument, if_neg (by simp [choiceLexemes]), readChoice_eq weighs value,
      Sql.spelled_lexemes, Sql.spelled_lexemes]
  rw [Sql.lexemes_opened (by decide), Sql.lexemes_linked (by decide) (by decide),
    Sql.lexemes_closed ends, kind.lexemes_choice, middle, closing]
  have unfiltered : readFilter d [] = some none := rfl
  have whole := readTally_eq named (weigh_choice weighs value) taken unfiltered
  simpa only [choiceLexemes, List.cons_append, List.append_assoc, List.nil_append] using whole

end Reading

/-- A field as it is written on its own. -/
def Field.text (f : Field) (d : Dialect) (spell : Hole → String) : String :=
  match f.render d with
  | .ok s => s.write d spell
  | .error _ => ""

section Texts
variable {c : Context} {spell : Hole → String} {kind : AggregateKind} {f : Option Field}
  {filter : Condition} {s : Sql}

theorem Field.text_of_render {d : Dialect} {f : Field} (made : f.render d = .ok s) :
    f.text d spell = s.write d spell := by
  rw [Field.text, made]

theorem Condition.text_of_filter (made : Renders c (.condition .filter false filter) s) :
    filter.text c .filter spell = s.write c.dialect spell := by
  have rendered : filter.render c .filter false = ⟨s.holes, .ok s⟩ := made.render_eq
  rw [Condition.text, rendered]

theorem Dialect.tally_write {d : Dialect} {t : Tally} (inert : SpelledInert spell)
    (phrase : Phrase s) (read : readTally d (s.lexemes spell) = some t) :
    d.tally (s.write d spell) = some t := by
  obtain ⟨e, -, walked⟩ := phrase (.before .field) 0 rfl
  rw [Dialect.tally, lex_write inert walked, Option.bind_some]
  exact read

theorem Renders.tally_native (marked : SpelledMarked spell)
    (native : c.dialect.filtersAggregates = true)
    (made : Renders c (.expr (.aggregate ⟨kind, f, some filter⟩)) s) :
    c.dialect.tally (s.write c.dialect spell) =
      some ⟨kind.tallied, kind.isDistinct, f.map fun g => .value (g.text c.dialect spell),
        some (filter.text c .filter spell)⟩ := by
  have phrase : Phrase s := made.laid
  cases made with
  | chosen _ rewritten _ => simp [rewritten] at native
  | @filtered _ _ _ column _ condition columned _ filters =>
    have weighs : condition.Weighs spell {} {} := filters.weighed marked
    have read := readTally_native columned weighs
    rw [Dialect.tally_write marked.1 phrase read, Condition.text_of_filter filters]
    rcases aggregateField_cases columned with ⟨rfl, rfl, -⟩ | ⟨g, text, rfl, rfl, written⟩
    · rfl
    · simp only [Option.map_some, Field.text_of_render written]

theorem Renders.tally_rewritten (marked : SpelledMarked spell)
    (rewritten : c.dialect.filtersAggregates = false)
    (made : Renders c (.expr (.aggregate ⟨kind, f, some filter⟩)) s) :
    c.dialect.tally (s.write c.dialect spell) =
      some ⟨kind.tallied, kind.isDistinct,
        some (.chosen (filter.text c .filter spell) (f.elim "1" fun g => g.text c.dialect spell)),
        none⟩ := by
  have phrase : Phrase s := made.laid
  cases made with
  | filtered _ native _ => simp [rewritten] at native
  | @chosen _ _ _ column _ condition columned _ filters =>
    have weighs : condition.Weighs spell {} {} := filters.weighed marked
    have read := readTally_rewritten columned weighs
    rw [Dialect.tally_write marked.1 phrase read, Condition.text_of_filter filters]
    rcases aggregateField_cases columned with ⟨rfl, rfl, -⟩ | ⟨g, text, rfl, rfl, written⟩
    · rfl
    · simp only [Option.elim_some, Option.getD_some, Field.text_of_render written]

theorem Renders.count_of_no_field {x : Option Condition}
    (made : Renders c (.expr (.aggregate ⟨kind, none, x⟩)) s) : kind = .count := by
  have counted {column : Option Sql} (columned : aggregateField c.dialect kind none
      .aggregateField = .ok column) : kind = .count := by
    rcases aggregateField_cases columned with ⟨-, -, count⟩ | ⟨g, -, given, -⟩
    · exact count
    · cases given
  cases made with
  | aggregate columned => exact counted columned
  | filtered columned _ _ => exact counted columned
  | chosen columned _ _ => exact counted columned

end Texts

/-- An aggregate of what passes a filter is the same where the filter is one and where the
    argument is a choice in its place, whatever aggregates make of their values. -/
theorem Expr.filter_rewrite {Row V : Type} [DecidableEq V] (D : Domain V) {kind : AggregateKind}
    {f : Option Field} {filter : Condition} {c e : Context} {s t : Sql}
    (native : c.dialect = .postgres ∨ c.dialect = .sqlite)
    (rewritten : e.dialect = .mySql ∨ e.dialect = .sqlServer)
    (first : ((Expr.aggregate ⟨kind, f, some filter⟩).render c).result = .ok s)
    (second : ((Expr.aggregate ⟨kind, f, some filter⟩).render e).result = .ok t)
    (params : ParamSet) (outcome : Row → Truth) (column : Row → Option V) (M N : Meaning Row V)
    (one : N.value "1" = fun _ => some (D.number 1)) :
    let spell (c : Context) := spellHole c.dialect c.style params
    let before : Tally := ⟨kind.tallied, kind.isDistinct,
      f.map fun g => .value (g.text c.dialect (spell c)), some (filter.text c .filter (spell c))⟩
    let after : Tally := ⟨kind.tallied, kind.isDistinct,
      some (.chosen (filter.text e .filter (spell e))
        (f.elim "1" fun g => g.text e.dialect (spell e))), none⟩
    M.holds (filter.text c .filter (spell c)) = outcome →
    N.holds (filter.text e .filter (spell e)) = outcome →
    (∀ g ∈ f, M.value (g.text c.dialect (spell c)) = column ∧
      N.value (g.text e.dialect (spell e)) = column) →
    c.dialect.tally (s.write c.dialect (spell c)) = some before ∧
      e.dialect.tally (t.write e.dialect (spell e)) = some after ∧
      ∀ rows : List Row, before.result D M rows = after.result D N rows := by
  intro spell before after decided alike valued
  have made : Renders c (.expr (.aggregate ⟨kind, f, some filter⟩)) s :=
    (Part.expr (.aggregate ⟨kind, f, some filter⟩)).derivable c s first
  have made' : Renders e (.expr (.aggregate ⟨kind, f, some filter⟩)) t :=
    (Part.expr (.aggregate ⟨kind, f, some filter⟩)).derivable e t second
  have filters : c.dialect.filtersAggregates = true := by
    rcases native with same | same <;> rw [same] <;> rfl
  have chooses : e.dialect.filtersAggregates = false := by
    rcases rewritten with same | same <;> rw [same] <;> rfl
  refine ⟨made.tally_native (spellHole_marked ..) filters,
    made'.tally_rewritten (spellHole_marked ..) chooses, fun rows => ?_⟩
  have kept : M.keeps (filter.text c .filter (spell c)) =
      N.keeps (filter.text e .filter (spell e)) := by
    funext row
    rw [Meaning.keeps, Meaning.keeps, decided, alike]
  cases f with
  | none =>
    obtain rfl := made.count_of_no_field
    exact Tally.result_counted D kept (fun row => by simp [one]) rows
  | some g =>
    obtain ⟨left, right⟩ := valued g rfl
    exact Tally.result_chosen D _ _ kept (left.trans right.symm) rows

def integers : Domain ℤ where
  number n := n
  sum values := if values = [] then none else some values.sum
  avg values := if values = [] then none else some (values.sum / values.length)
  min values := values.min?
  max values := values.max?

def summedTotals : Expr :=
  .aggregate ⟨.sum, some { name := "total" }, some (.simple { name := "total" } .gte
    (some ⟨"least", by decide⟩))⟩

def totals : Meaning (Truth × Option ℤ) ℤ where
  holds _ := Prod.fst
  value text := if text = "1" then fun _ => some 1 else Prod.snd

theorem summedTotals_rewrite :
    let before : Tally :=
      ⟨.sum, false, some (.value "\x22total\x22"), some "\x22total\x22 >= :least"⟩
    let after : Tally := ⟨.sum, false, some (.chosen "`total` >= :least" "`total`"), none⟩
    Dialect.postgres.tally "SUM(\x22total\x22) FILTER (WHERE \x22total\x22 >= :least)" =
        some before ∧
      Dialect.mySql.tally "SUM(CASE WHEN `total` >= :least THEN `total` END)" = some after ∧
      ∀ rows, before.result integers totals rows = after.result integers totals rows := by
  have first : (summedTotals.render (.top {})).result = .ok _ := rfl
  have second : (summedTotals.render (.top { dialect := .mySql })).result = .ok _ := rfl
  exact Expr.filter_rewrite integers (.inl rfl) (.inl rfl) first second .empty Prod.fst Prod.snd
    totals totals rfl rfl rfl (by rintro _ ⟨⟩; exact ⟨rfl, rfl⟩)

end TypedSql
