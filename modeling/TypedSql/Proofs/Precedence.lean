import TypedSql.Proofs.Render.Atomic

namespace TypedSql

mutual

def Condition.value (truth : Condition → Truth) : Condition → Truth
  | .group op items => op.fold (Condition.values truth items)
  | x => truth x

def Condition.values (truth : Condition → Truth) : List Condition → List Truth
  | [] => []
  | x :: rest => x.value truth :: Condition.values truth rest

end

/-- A condition as it is written on its own. -/
def Condition.text (x : Condition) (c : Context) (scope : Scope) (spell : Hole → String) : String :=
  match (x.render c scope false).result with
  | .ok s => s.write c.dialect spell
  | .error _ => ""

section Values
variable {truth : Condition → Truth}

theorem Condition.value_group (op : Connective) (items : List Condition) :
    (Condition.group op items).value truth = op.fold (items.map (Condition.value truth)) := by
  have listed : Condition.values truth items = items.map (Condition.value truth) := by
    induction items with
    | nil => rfl
    | cons x rest ih => rw [Condition.values, ih, List.map_cons]
  rw [Condition.value, listed]

theorem Condition.value_leaf {x : Condition} (leaf : x.IsLeaf) : x.value truth = truth x := by
  cases x with
  | group => exact leaf.elim
  | _ => rfl

theorem Condition.render_leaf {x : Condition} (leaf : x.IsLeaf) (c : Context) (scope : Scope)
    (nested : Bool) : x.render c scope nested = x.render c scope false := by
  cases x with
  | group => exact leaf.elim
  | _ => rfl

end Values

section Reading
variable {d : Dialect} {c : Context} {scope : Scope} {nested : Bool} {spell : Hole → String}
  {x : Condition} {s : Sql} {op : Connective}

theorem Condition.text_of_renders (leaf : x.IsLeaf)
    (made : Renders c (.condition scope nested x) s) :
    x.text c scope spell = s.write c.dialect spell := by
  have rendered : x.render c scope nested = ⟨s.holes, .ok s⟩ := made.render_eq
  rw [Condition.render_leaf leaf] at rendered
  rw [Condition.text, rendered]

theorem Sql.lexemes_join (op : Connective) (parts : List Sql) :
    (Sql.join (" " ++ op.keyword ++ " ") parts).lexemes spell =
      chained op (parts.map (Sql.lexemes spell)) := by
  have text : (" " ++ op.keyword ++ " ").toList.foldr gather [] = connector op := by
    cases op <;> rfl
  have begins : opened (" " ++ op.keyword ++ " ").toList = true := by cases op <;> decide
  have ends : closed (" " ++ op.keyword ++ " ").toList = true := by cases op <;> decide
  induction parts with
  | nil => rfl
  | cons part rest ih =>
    cases rest with
    | nil => rfl
    | cons next rest =>
      rw [Sql.join, Sql.lexemes_linked begins ends, ih, text]
      · rfl
      · simp

theorem Sql.lexemes_parenthesised (s : Sql) :
    s.parenthesised.lexemes spell = Lexeme.sign '(' :: s.lexemes spell ++ [Lexeme.sign ')'] := by
  rw [Sql.parenthesised, Sql.lexemes_opened (by decide), Sql.lexemes_closed (by decide)]
  rfl

/-- That the text of a condition reads as a formula with the condition's values; inside of a group
    also between connectives. -/
def Condition.Reads (c : Context) (scope : Scope) (spell : Hole → String) (nested : Bool)
    (x : Condition) (s : Sql) : Prop :=
  ∃ φ : Formula, (∀ truth, φ.value truth = x.value fun leaf => truth (leaf.text c scope spell)) ∧
    match nested with
    | true => ReadsAs c.dialect (s.lexemes spell) φ
    | false => parse c.dialect (s.lexemes spell) = some φ

theorem Condition.Reads.of_leaf (leaf : x.IsLeaf)
    (made : Renders c (.condition scope nested x) s) (whole : Atomic c.dialect spell s) :
    x.Reads c scope spell nested s := by
  obtain ⟨solid, opens⟩ := solid_of_edges whole.begins whole.ends
  have reads : ReadsAs c.dialect (s.lexemes spell) _ := .leaf (whole.passes 0 0) solid opens
  have text : spelled c.dialect (s.lexemes spell) = x.text c scope spell := by
    rw [Sql.spelled_lexemes, Condition.text_of_renders leaf made]
  rw [text] at reads
  cases nested with
  | true =>
    refine ⟨_, fun truth => ?_, reads⟩
    rw [Condition.value_leaf leaf, Formula.value_leaf]
  | false =>
    refine ⟨_, fun truth => ?_, reads.parse_eq⟩
    have alone : (Formula.ofParts (.leaf (x.text c scope spell)) []).value truth = _ :=
      Formula.value_ofParts .and (.leaf (x.text c scope spell)) []
    rw [alone, Condition.value_leaf leaf]
    exact Connective.fold_single _ _

theorem Condition.Reads.of_only (member : x.Reads c scope spell nested s) :
    (Condition.group op [x]).Reads c scope spell nested s := by
  obtain ⟨φ, valued, reads⟩ := member
  refine ⟨φ, fun truth => ?_, reads⟩
  rw [valued, Condition.value_group, List.map_singleton, Connective.fold_single]

theorem Condition.parse_group (op : Connective) {items : List (Condition × Sql)}
    (some : items ≠ [])
    (each : ∀ x ∈ items, x.1.Reads c scope spell true x.2) :
    ∃ φ : Formula,
      (∀ truth, φ.value truth =
        (Condition.group op (items.map Prod.fst)).value fun leaf =>
          truth (leaf.text c scope spell)) ∧
      parse c.dialect (chained op (items.map fun x => x.2.lexemes spell)) = .some φ := by
  have chosen : ∀ x : Condition × Sql, ∃ φ : Formula, x ∈ items →
      (∀ truth, φ.value truth = x.1.value fun leaf => truth (leaf.text c scope spell)) ∧
        ReadsAs c.dialect (x.2.lexemes spell) φ := by
    intro x
    by_cases member : x ∈ items
    · obtain ⟨φ, read⟩ := each x member
      exact ⟨φ, fun _ => read⟩
    · exact ⟨.leaf "", fun inside => absurd inside member⟩
  choose φ reads using chosen
  cases items with
  | nil => exact absurd rfl some
  | cons first rest =>
    refine ⟨.ofParts (φ first) ((rest.map φ).map (op, ·)), fun truth => ?_, ?_⟩
    · rw [Formula.value_ofParts, Condition.value_group, ← List.map_cons, List.map_map, List.map_map]
      congr 1
      exact List.map_congr_left fun x member => (reads x member).1 truth
    · have parts : ∀ q ∈ (first :: rest).map fun x => (x.2.lexemes spell, φ x),
          ReadsAs c.dialect q.1 q.2 := List.forall_mem_map.mpr fun x member => (reads x member).2
      have parsed : parse c.dialect (chained op _) = _ := parse_chained parts
      simpa [List.map_map, Function.comp_def] using parsed

theorem Condition.Reads.of_group (inert : SpelledInert spell) {items : List (Condition × Sql)}
    (several : 2 ≤ items.length)
    (members : ∀ x ∈ items, Renders c (.condition scope true x.1) x.2)
    (each : ∀ x ∈ items, x.1.Reads c scope spell true x.2) (nested : Bool) :
    (Condition.group op (items.map Prod.fst)).Reads c scope spell nested
      (if nested then
        Sql.parenthesised (Sql.join (" " ++ op.keyword ++ " ") (items.map Prod.snd))
      else Sql.join (" " ++ op.keyword ++ " ") (items.map Prod.snd)) := by
  have some : items ≠ [] := by
    rintro rfl
    simp at several
  obtain ⟨φ, valued, parsed⟩ := Condition.parse_group op some each
  have joined : (Sql.join (" " ++ op.keyword ++ " ") (items.map Prod.snd)).lexemes spell =
      chained op (items.map fun x => x.2.lexemes spell) := by
    rw [Sql.lexemes_join, List.map_map]
    rfl
  rw [← joined] at parsed
  refine ⟨φ, valued, ?_⟩
  cases nested with
  | false => exact parsed
  | true =>
    have flat : Renders c (.condition scope false (.group op (items.map Prod.fst)))
        (Sql.join (" " ++ op.keyword ++ " ") (items.map Prod.snd)) := .group several members
    have phrase : Phrase (Sql.join (" " ++ op.keyword ++ " ") (items.map Prod.snd)) := flat.laid
    have stands : Stance.Holds (.ready .field) (.before .field) := rfl
    have balanced := Sql.Runs.nest_lexemes inert stands phrase 0
    have passes : Sql.Passes spell {} (Sql.parenthesised _) {} :=
      Sql.Passes.enclosed inert (by decide) phrase (by decide)
    rw [Sql.Passes, Sql.lexemes_parenthesised] at passes
    show ReadsAs c.dialect ((Sql.parenthesised _).lexemes spell) φ
    rw [Sql.lexemes_parenthesised]
    exact .enclosed balanced passes parsed

theorem Condition.reads (marked : SpelledMarked spell) :
    Renders c (.condition scope nested x) s → x.Reads c scope spell nested s := by
  -- groups nest in lists, so the induction is on how deep a condition reaches
  suffices each : ∀ p : Part, ∀ x, p = .condition x → ∀ nested s,
      Renders c (.condition scope nested x) s → x.Reads c scope spell nested s from
    each (.condition x) x rfl nested s
  refine Part.induction fun p below => ?_
  rintro x rfl nested s made
  have whole := made.outside marked
  cases x with
  | group op items =>
    cases made with
    | only single =>
      exact .of_only (below _ (by simp [Part.parts, Condition.parts]) _ rfl _ _ single)
    | group several members =>
      refine .of_group marked.1 several members (fun y member => ?_) nested
      exact below _ (by simpa [Part.parts, Condition.parts] using ⟨_, member⟩) _ rfl _ _
        (members y member)
  | _ => exact .of_leaf trivial made (whole.1 trivial)

end Reading

/-- What the connectives of a condition mean survives its printing: the text, read by the
    dialect's own tokens with AND tighter than OR, has the value of the condition whatever the
    values of its leaves, which stand for what is written of them. -/
theorem Condition.printed_value {x : Condition} {c : Context} {scope : Scope} {s : Sql}
    (rendered : (x.render c scope false).result = .ok s) (params : ParamSet) :
    let spell := spellHole c.dialect c.style params
    ∃ tokens φ, c.dialect.lex (s.write c.dialect spell).toList = some tokens ∧
      parse c.dialect (lexemes tokens) = some φ ∧
      ∀ truth : String → Truth,
        φ.value truth = x.value fun leaf => truth (leaf.text c scope spell) := by
  intro spell
  have made : Renders c (.condition scope false x) s :=
    (Part.condition x).derivable c scope false s rendered
  have marked : SpelledMarked spell := spellHole_marked c.dialect c.style params
  obtain ⟨φ, valued, parsed⟩ := Condition.reads marked made
  have phrase : Phrase s := made.laid
  obtain ⟨e, -, walked⟩ := phrase (.before .field) 0 rfl
  exact ⟨s.tokens spell, φ, lex_write marked.1 walked, parsed, valued⟩

def rangeOrNull : Condition :=
  let range : Condition :=
    .between { name := "b OR c" } ⟨"low", by decide⟩ ⟨"high", by decide⟩ false
  .group .and [.simple { name := "a" } .isNull none,
    .group .or [range, .simple { name := "d" } .isNotNull none]]

def rangeOrNullSql : Sql :=
  [.name .field "a", .text " IS NULL", .text " AND ", .text "(", .name .field "b OR c",
    .text " BETWEEN ", .hole ⟨0, ⟨"low", by decide⟩⟩, .text " AND ", .hole ⟨0, ⟨"high", by decide⟩⟩,
    .text " OR ", .name .field "d", .text " IS NOT NULL", .text ")"]

theorem rangeOrNull_value :
    (rangeOrNull.render ⟨.postgres, .named, 0, 0⟩ .whereClause false).result =
        .ok rangeOrNullSql ∧
      ∃ tokens φ,
        Dialect.postgres.lex ("\x22a\x22 IS NULL AND (\x22b OR c\x22 BETWEEN :low AND :high " ++
          "OR \x22d\x22 IS NOT NULL)").toList = some tokens ∧
        parse .postgres (lexemes tokens) = some φ ∧
        ∀ truth : String → Truth,
          φ.value truth = Connective.fold .and [truth "\x22a\x22 IS NULL",
            Connective.fold .or [truth "\x22b OR c\x22 BETWEEN :low AND :high",
              truth "\x22d\x22 IS NOT NULL"]] := by
  have rendered : (rangeOrNull.render ⟨.postgres, .named, 0, 0⟩ .whereClause false).result =
      .ok rangeOrNullSql := rfl
  obtain ⟨tokens, φ, lexed, parsed, valued⟩ := Condition.printed_value rendered .empty
  have text : rangeOrNullSql.write .postgres (spellHole .postgres .named .empty) =
      "\x22a\x22 IS NULL AND (\x22b OR c\x22 BETWEEN :low AND :high " ++
        "OR \x22d\x22 IS NOT NULL)" := rfl
  refine ⟨rendered, tokens, φ, ?_, parsed, fun truth => ?_⟩
  · rw [← text]
    exact lexed
  · rw [valued]
    rfl

end TypedSql
