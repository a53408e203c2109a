import TypedSql.Proofs.Render.Sent
import TypedSql.Proofs.Render.Whole

namespace TypedSql

/-- The operands and the set operations that a text says, in the words of its dialect. -/
def Rendered.combination (r : Rendered) (d : Dialect) : Option (Combination (List Lexeme)) :=
  (d.lex r.sql.toList).map fun tokens => TypedSql.combination 0 (visible (lexemes tokens))

def CompoundQuery.operations (q : CompoundQuery) : List SetOperation := q.parts.map (·.op)

/-- That a text is what a query is rendered to. -/
def Query.Reads (c : Context) (spell : Hole → String) (q : Query) (text : List Lexeme) : Prop :=
  ∃ s, Renders c (.query q) s ∧ visible (s.lexemes spell) = text

def Query.Leads (c : Context) (spell : Hole → String) (q : Query) (text : List Lexeme) : Prop :=
  ∃ s, Renders c (.query q) s ∧ visible (s.lexemes spell) <+: text

/-- That the operations of a compound query are read in order, and between them its operands: the
    last one with what orders and limits the whole, each other one alone. -/
structure CompoundQuery.ReadAs (q : CompoundQuery) (c : Context) (spell : Hole → String)
    (x : Combination (List Lexeme)) : Prop where
  operations : x.operations = q.operations
  operands : List.Forall₂ (Query.Leads c spell) q.operands x.operands
  inner : List.Forall₂ (Query.Reads c spell) q.operands.dropLast x.operands.dropLast

/-- What can be an operand: nothing in it is a set operation, and no bracket is left open. -/
structure Selects (ls : List Lexeme) : Prop where
  uncut : ∀ x ∈ ls, x.setOperation? = none
  level : (skim 0 ls).2 = 0
  begins : ∃ rest, ls = .word "SELECT".toList :: rest

section Reading
variable {c : Context} {spell : Hole → String} {s : Sql} {q : Query} {ls : List Lexeme}

theorem Selects.combination_append (selects : Selects ls) (rest : List Lexeme) :
    combination 0 (visible ls ++ rest) =
      ⟨visible ls ++ (combination 0 rest).first, (combination 0 rest).rest⟩ := by
  rw [TypedSql.combination_append fun x member => selects.uncut x (mem_visible member),
    skim_visible, selects.level]

theorem Selects.settleAll_append (selects : Selects ls) (op : SetOperation) (rest : List Lexeme) :
    settleAll op (visible ls ++ rest) = (op, visible ls ++ rest) := by
  obtain ⟨more, rfl⟩ := selects.begins
  have other : "SELECT".toList.map Char.toUpper ≠ "ALL".toList := by decide
  show settleAll op (.word "SELECT".toList :: (visible more ++ rest)) = _
  rw [settleAll, if_neg other]
  rfl

theorem Query.selects (marked : SpelledMarked spell) (operation : q.operation = .select)
    (made : Renders c (.query q) s) : Selects (s.lexemes spell) := by
  have whole := made.keepsWhole.whole marked
  have stands : Stance.Holds .clear .loose := by simp [Stance.Holds]
  have nested := (made.laid.2 (.inl operation)).nest_lexemes marked.1 stands 0
  refine ⟨whole.uncut, level_of_nest nested, ?_⟩
  cases made with
  | select =>
    simp only [selectText, List.append_assoc]
    rw [Sql.lexemes_closed (by decide)]
    exact ⟨_, rfl⟩
  | count other | insert other | update other | delete other =>
    rw [operation] at other
    cases other

theorem Tail.apart (tail : Tail s) (spell : Hole → String) : Apart (s.lexemes spell) := by
  obtain ⟨e, -, walked⟩ := tail .after 0 (by simp [Stance.Holds])
  rcases head_of_walk spell (.inl rfl) walked with
    ⟨-, none, -⟩ | ⟨c, cs, clean, admitted, -, text, tokens, read⟩
  · rw [Sql.lexemes, none]
    trivial
  · rw [Sql.lexemes, read]
    refine apart_gather ?_ _
    simp only [Edge.admits, Bool.and_eq_true, Bool.not_eq_true'] at admitted
    simp only [tidy, List.all_cons, Bool.and_eq_true, Bool.not_eq_true', Bool.or_eq_false_iff]
      at clean
    rw [isInert, admitted.1, clean.2.1.2, Bool.or_false]

theorem apart_further (parts : List (CompoundPart × Sql)) {tail : Sql}
    (apart : Apart (tail.lexemes spell)) :
    Apart (Sql.lexemes spell ((parts.map furtherOperand).flatten ++ tail)) := by
  cases parts with
  | nil => exact apart
  | cons p parts =>
    have begins : opened (" " ++ p.1.op.display ++ " ").toList = true := by
      cases p.1.op <;> decide
    simp only [List.map_cons, List.flatten_cons, furtherOperand, List.append_assoc]
    exact Sql.apart_of_opened begins

structure Further (c : Context) (spell : Hole → String) (parts : List (CompoundPart × Sql))
    (x : Combination (List Lexeme)) : Prop where
  each : List.Forall₂ (fun p next => p.1.op = next.1 ∧ p.1.query.Leads c spell next.2) parts x.rest
  inner : List.Forall₂ (fun p next => p.1.query.Reads c spell next.2) parts.dropLast x.rest.dropLast
  /-- Nothing is left to stand before the first operation. -/
  first : parts ≠ [] → x.first = []

theorem combination_further (marked : SpelledMarked spell) {parts : List (CompoundPart × Sql)}
    {tail : Sql} (each : ∀ p ∈ parts,
      p.1.query.operation = .select ∧ Renders c (.query p.1.query) p.2)
    (apart : Apart (tail.lexemes spell))
    (uncut : ∀ x ∈ tail.lexemes spell, x.setOperation? = none) :
    Further c spell parts
      (combination 0 (visible (Sql.lexemes spell ((parts.map furtherOperand).flatten ++ tail)))) := by
  induction parts with
  | nil =>
    rw [List.map_nil, List.flatten_nil, List.nil_append,
      combination_of_whole fun x member => uncut x (mem_visible member)]
    exact ⟨.nil, .nil, fun some => absurd rfl some⟩
  | cons p parts ih =>
    obtain ⟨⟨operation, made⟩, others⟩ := List.forall_mem_cons.mp each
    have selects := Query.selects marked operation made
    have ends : closed (" " ++ p.1.op.display ++ " ").toList = true := by
      cases p.1.op <;> decide
    rw [List.map_cons, List.flatten_cons, List.append_assoc,
      Sql.lexemes_append (apart_further parts apart), furtherOperand, Sql.lexemes_closed ends,
      List.append_assoc, visible_append, visible_append, visible_display,
      combination_words (by rw [selects.combination_append]; exact selects.settleAll_append _ _),
      selects.combination_append]
    have rest := ih others
    generalize combination 0 _ = after at rest ⊢
    refine ⟨.cons ⟨rfl, p.2, made, List.prefix_append _ _⟩ rest.each, ?_, fun _ => rfl⟩
    -- an operand that another one follows ends where the next operation begins
    cases parts with
    | nil =>
      have last : after.rest = [] := List.forall₂_nil_left_iff.mp rest.each
      rw [last]
      exact .nil
    | cons next parts =>
      have more : after.rest ≠ [] := by
        intro none
        have met := none ▸ rest.each
        cases met
      rw [List.dropLast_cons_of_ne_nil (List.cons_ne_nil _ _), List.dropLast_cons_of_ne_nil more]
      refine .cons ⟨p.2, made, ?_⟩ rest.inner
      rw [rest.first (List.cons_ne_nil _ _), List.append_nil]

theorem CompoundQuery.readAs_of_renders {q : CompoundQuery} (marked : SpelledMarked spell)
    (made : Statement.Renders c (.compound q) s) :
    q.ReadAs c spell (combination 0 (visible (s.lexemes spell))) := by
  cases made with
  | @compound _ base parts items several checked first partsListed supported more itemsListed
      order =>
    have operation {query : Query} (member : query ∈ q.operands) : query.operation = .select :=
      operation_of_checkOperands checked member
    have each : ∀ p ∈ parts, p.1.query.operation = .select ∧ Renders c (.query p.1.query) p.2 := by
      intro p member
      have operand : p.1.query ∈ q.operands := by
        rw [CompoundQuery.operands, partsListed]
        exact List.mem_cons_of_mem _ (List.mem_map_of_mem (List.mem_map_of_mem member))
      exact ⟨operation operand, more p member⟩
    have selects := Query.selects marked (operation List.mem_cons_self) first
    have tail : Tail (orderClause (items.map Prod.snd) ++
        sql (c.dialect.pagination q.limit q.offset (!q.orderBy.isEmpty))) :=
      Sql.Runs.append (Tail.orderClause (forall_snd fun o member => (order o member).laid))
        (Tail.pagination _ _ _ _)
    have keeps : Sql.KeepsWhole (orderClause (items.map Prod.snd) ++
        sql (c.dialect.pagination q.limit q.offset (!q.orderBy.isEmpty))) :=
      (Sql.KeepsWhole.orderClause (forall_snd fun o member => (order o member).keepsWhole)).append
        (.pagination _ _ _ _)
    have apart := tail.apart spell
    have read := combination_further marked each apart (keeps.whole marked).uncut
    rw [List.append_assoc, List.append_assoc, Sql.lexemes_append (apart_further parts apart),
      visible_append, selects.combination_append]
    have some : parts ≠ [] := by
      rintro rfl
      exact several (by rw [partsListed, List.map_nil])
    generalize combination 0 _ = after at read ⊢
    refine ⟨?_, ?_, ?_⟩
    · have same : List.Forall₂ Eq (parts.map fun p => p.1.op) (after.rest.map Prod.fst) := by
        rw [List.forall₂_map_left_iff, List.forall₂_map_right_iff]
        exact read.each.imp fun _ _ pair => pair.1
      rw [List.forall₂_eq_eq_eq] at same
      rw [CompoundQuery.operations, partsListed, List.map_map]
      exact same.symm
    · rw [CompoundQuery.operands, partsListed, List.map_map]
      refine .cons ⟨base, first, List.prefix_append _ _⟩ ?_
      rw [List.forall₂_map_left_iff, List.forall₂_map_right_iff]
      exact read.each.imp fun _ _ pair => pair.2
    · have more : after.rest ≠ [] := by
        intro none
        exact some (List.forall₂_nil_right_iff.mp (none ▸ read.each))
      rw [CompoundQuery.operands, partsListed, List.map_map, Combination.operands,
        List.dropLast_cons_of_ne_nil (by simpa using some),
        List.dropLast_cons_of_ne_nil (by simpa using more), ← List.map_dropLast,
        ← List.map_dropLast]
      refine .cons ⟨base, first, ?_⟩ ?_
      · rw [read.first some, List.append_nil]
      · rw [List.forall₂_map_left_iff, List.forall₂_map_right_iff]
        exact read.inner

end Reading

/-- What is sent for a compound query is read as the query. -/
theorem CompoundQuery.readAs_of_toSql {q : CompoundQuery} {options : RenderOptions} {r : Rendered}
    (rendered : q.toSql options = .ok r) :
    ∃ x, r.combination options.dialect = some x ∧
      q.ReadAs (.top options) ((Statement.compound q).spelling options) x := by
  have sent : (Statement.compound q).toSql options = .ok r := rendered
  obtain ⟨s, made, read, -⟩ := Statement.sent_tokens sent
  refine ⟨_, ?_, CompoundQuery.readAs_of_renders (spellHole_marked _ _ _) made⟩
  rw [Rendered.combination, read, Option.map_some]
  rfl

/-- A compound query that is rendered for two dialects is read as the same operations in both, and
    stands for the same rows exactly if both dialects bind its operations alike or no intersection
    comes after another operation. -/
theorem CompoundQuery.same_rows_iff {q : CompoundQuery} {options others : RenderOptions}
    {r t : Rendered} (rendered : q.toSql options = .ok r) (again : q.toSql others = .ok t) :
    ∃ x y, r.combination options.dialect = some x ∧ t.combination others.dialect = some y ∧
      q.ReadAs (.top options) ((Statement.compound q).spelling options) x ∧
      q.ReadAs (.top others) ((Statement.compound q).spelling others) y ∧
      (x.Agree options.dialect others.dialect y ↔
        (options.dialect = .sqlite ↔ others.dialect = .sqlite) ∨
          IntersectsFirst q.operations) := by
  obtain ⟨x, found, reads⟩ := CompoundQuery.readAs_of_toSql rendered
  obtain ⟨y, found', reads'⟩ := CompoundQuery.readAs_of_toSql again
  have same : x.operations = y.operations := reads.operations.trans reads'.operations.symm
  have agree := Combination.agree_iff (d := options.dialect) (e := others.dialect) same
  rw [reads.operations] at agree
  exact ⟨x, y, found, found', reads, reads', agree⟩

def wholeTable (table : String) : Query := { operation := .select, table := { name := table } }

def sharedFirst : CompoundQuery :=
  { base := wholeTable "a", parts := [⟨.intersect, wholeTable "b"⟩, ⟨.union, wholeTable "c"⟩] }

def sharedFirstSent : Rendered where
  sql := "SELECT * FROM \x22a\x22 INTERSECT SELECT * FROM \x22b\x22 UNION SELECT * FROM \x22c\x22"
  params := []

theorem sharedFirst_same_rows :
    sharedFirst.toSql {} = .ok sharedFirstSent ∧
      sharedFirst.toSql { dialect := .sqlite } = .ok sharedFirstSent ∧
      ∃ x y, sharedFirstSent.combination .postgres = some x ∧
        sharedFirstSent.combination .sqlite = some y ∧ x.Agree .postgres .sqlite y := by
  have rendered : sharedFirst.toSql {} = .ok sharedFirstSent := rfl
  have again : sharedFirst.toSql { dialect := .sqlite } = .ok sharedFirstSent := rfl
  obtain ⟨x, y, found, found', -, -, agree⟩ := CompoundQuery.same_rows_iff rendered again
  exact ⟨rendered, again, x, y, found, found', agree.mpr (.inr (by decide))⟩

def sharedLast : CompoundQuery :=
  { base := wholeTable "a", parts := [⟨.union, wholeTable "b"⟩, ⟨.intersect, wholeTable "c"⟩] }

def sharedLastSent : Rendered where
  sql := "SELECT * FROM \x22a\x22 UNION SELECT * FROM \x22b\x22 INTERSECT SELECT * FROM \x22c\x22"
  params := []

def onlyFirst (place : Nat) : Multiset Unit := if place = 0 then {()} else 0

/-- PostgreSQL and SQLite are sent the same text. A row of the first table alone is in what the
    text stands for in PostgreSQL, but not in SQLite. -/
theorem sharedLast_regrouped :
    sharedLast.toSql {} = .ok sharedLastSent ∧
      sharedLast.toSql { dialect := .sqlite } = .ok sharedLastSent ∧
      ∃ x y, sharedLastSent.combination .postgres = some x ∧
        sharedLastSent.combination .sqlite = some y ∧
        Dialect.postgres.denote (x.fill onlyFirst) = {()} ∧
        Dialect.sqlite.denote (y.fill onlyFirst) = 0 ∧ ¬ x.Agree .postgres .sqlite y := by
  have first : (sharedLastSent.combination .postgres).map Combination.operations =
      some [.union, .intersect] := by decide +kernel
  have second : (sharedLastSent.combination .sqlite).map Combination.operations =
      some [.union, .intersect] := by decide +kernel
  obtain ⟨x, found, operations⟩ := Option.map_eq_some_iff.mp first
  obtain ⟨y, found', operations'⟩ := Option.map_eq_some_iff.mp second
  have kept : Dialect.postgres.denote (x.fill onlyFirst) = {()} := by
    rw [Combination.fill, operations]
    decide
  have lost : Dialect.sqlite.denote (y.fill onlyFirst) = 0 := by
    rw [Combination.fill, operations']
    decide
  refine ⟨rfl, rfl, x, y, found, found', kept, lost, fun agree => ?_⟩
  have same := agree Unit onlyFirst
  rw [kept, lost] at same
  simp at same

end TypedSql
