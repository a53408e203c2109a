import TypedSql.Proofs.Render.Passage
import TypedSql.Proofs.Sql.Grouping

namespace TypedSql

/-- How a text of PostgreSQL groups. -/
def groupText (text : String) : Option Grouping :=
  (Dialect.postgres.lex text.toList).bind fun tokens => group (lexemes tokens)

example : groupText "(\x22d\x22->'size') + :extra" =
    some (.apply "+"
      (.operand [.sign '(', .name "d", .sign '-', .sign '>', .literal "size", .sign ')'])
      (.operand [.word ":extra".toList])) := by
  decide +kernel

def BinaryOp.isArithmetic : BinaryOp → Bool
  | .add | .sub | .mul | .div | .mod => true
  | _ => false

section Operators

theorem Operates.binary (op : BinaryOp) :
    Operates op.symbol ((" " ++ op.symbol ++ " ").toList.foldr gather []) := by
  cases op <;> exact .of_items (by decide) fun text more => ⟨rfl, rfl⟩

theorem Operates.comparison {op : Operator} (comparing : (op.isComparison || op.isPattern) = true) :
    Operates op.symbol ((" " ++ op.symbol ++ " ").toList.foldr gather []) := by
  cases op with
  | eq | ne | gt | gte | lt | lte | like | notLike | iLike | notILike =>
    exact .of_items (by decide) fun text more => ⟨rfl, rfl⟩
  | _ => cases comparing

theorem Operates.arrow {symbol : String} (arrow : symbol = "->" ∨ symbol = "->>") :
    Operates symbol (symbol.toList.foldr gather []) := by
  rcases arrow with rfl | rfl <;> exact .of_items (by decide) fun text more => ⟨rfl, rfl⟩

end Operators

section Fields
variable {spell : Hole → String} {left s : Sql} {g : Grouping}

theorem Lexeme.isOperand_of_bare {w : List Char} (bare : (Lexeme.word w).isBare = true) :
    (Lexeme.word w).isOperand = true := by
  have apart (c first : Char) (other : c.toUpper.isAlpha = false) (letter : first.isAlpha = true) :
      c.toUpper ≠ first := by
    rintro rfl
    rw [other] at letter
    cases letter
  rcases w with - | ⟨c, - | ⟨next, w⟩⟩
  · decide
  · simp [isOperand, isOperatorWord]
  · have other : c.toUpper.isAlpha = false := by simpa [isBare] using bare
    simp [isOperand, isOperatorWord, apart c 'N' other (by decide), apart c 'L' other (by decide),
      apart c 'I' other (by decide)]

theorem Field.reads_column (f : Field) :
    (Grouping.operand (f.column.lexemes spell)).Reads (f.column.lexemes spell) := by
  have name (n : String) : (Lexeme.name n).isOperand = true := rfl
  have dot : (Lexeme.sign '.').isOperand = true := by decide
  have letter (c : Char) : (Lexeme.word [c]).isOperand = true := Lexeme.isOperand_of_bare rfl
  rw [Field.lexemes_column]
  obtain ⟨n, qualifier, path⟩ := f
  rcases qualifier with _ | table | short <;>
    exact .operand (by simp [columnLexemes])
      (by simp [columnLexemes, name, dot, letter])

/-- What steps into a value are read as: nothing but arrows. -/
def Arrowed (g : Grouping) : Prop :=
  g.Respects ∧ ∀ symbol ∈ g.operators, symbol = "->" ∨ symbol = "->>"

theorem Arrowed.operand (name : List Lexeme) : Arrowed (.operand name) :=
  ⟨trivial, by simp [Grouping.operators]⟩

theorem strength_arrow {symbol : String} (arrow : symbol = "->" ∨ symbol = "->>") :
    strength symbol = 2 := by
  rcases arrow with rfl | rfl <;> decide

theorem Arrowed.strength_eq {symbol : String} (arrowed : Arrowed g)
    (member : symbol ∈ g.operators) : strength symbol = 2 :=
  strength_arrow (arrowed.2 symbol member)

theorem Arrowed.apply {symbol : String} (arrow : symbol = "->" ∨ symbol = "->>")
    (arrowed : Arrowed g) (step : List Lexeme) : Arrowed (.apply symbol g (.operand step)) := by
  have known : isOperator symbol = true := by rcases arrow with rfl | rfl <;> decide
  have alike : ∀ other ∈ g.operators, strength symbol ≤ strength other := fun other member => by
    rw [strength_arrow arrow, arrowed.strength_eq member]
  refine ⟨⟨known, arrowed.1, trivial, alike, by simp [Grouping.operators]⟩, ?_⟩
  simpa [Grouping.operators, or_imp, forall_and] using ⟨arrowed.2, arrow⟩

theorem reads_pathHop {symbol : String} (arrow : symbol = "->" ∨ symbol = "->>")
    (segment : PathSegment) (reads : g.Reads (left.lexemes spell)) :
    ∃ step, (Grouping.apply symbol g (.operand step)).Reads
      ((left ++ Dialect.pathHop symbol segment).lexemes spell) := by
  have steps : Steps spell (Dialect.pathHop symbol segment) := .pathHop arrow segment
  have closing : closed symbol.toList = true := by rcases arrow with rfl | rfl <;> decide
  rw [Sql.lexemes_append steps.2]
  -- an arrow runs into no step
  obtain ⟨step, split, stands⟩ : ∃ step, (Dialect.pathHop symbol segment).lexemes spell =
      symbol.toList.foldr gather [] ++ [step] ∧ step.isOperand = true := by
    cases segment with
    | key key => exact ⟨_, Sql.lexemes_closed (s := [.literal key.name]) closing, rfl⟩
    | index index =>
      have digits : (sql (toString index.toNat)).lexemes spell =
          [.word (toString index.toNat).toList] := by
        rw [Sql.lexemes_sql, foldr_gather_word (isInert_toString _) (toList_toString_ne_nil _)]
      refine ⟨_, ?_, Lexeme.isOperand_of_bare (isBare_of_digits (isDigit_toString index.toNat))⟩
      rw [← digits, ← Sql.lexemes_closed closing, Dialect.pathHop, Sql.lexemes_sql,
        String.toList_append, List.foldr_append, sql, List.singleton_append, Sql.lexemes_text_cons,
        Sql.lexemes_sql]
  rw [split]
  exact ⟨_, reads.apply (.arrow arrow) (.operand (by simp) (by simpa using stands))⟩

theorem reads_pathHops (asText : Bool) {segments : List PathSegment} (some : segments ≠ [])
    (arrowed : Arrowed g) (reads : g.Reads (left.lexemes spell)) :
    ∃ symbol front step, Arrowed (.apply symbol front (.operand step)) ∧
      (Grouping.apply symbol front (.operand step)).Reads
        ((left ++ Dialect.pathHops asText segments).lexemes spell) := by
  induction segments generalizing left g with
  | nil => exact absurd rfl some
  | cons segment rest ih =>
    cases rest with
    | nil =>
      let symbol := if asText then "->>" else "->"
      have arrow : symbol = "->" ∨ symbol = "->>" := by cases asText <;> simp [symbol]
      obtain ⟨step, made⟩ := reads_pathHop arrow segment reads
      exact ⟨symbol, g, step, arrowed.apply arrow step, made⟩
    | cons next rest =>
      obtain ⟨step, made⟩ := reads_pathHop (.inl rfl) segment reads
      have more := ih (by simp) (arrowed.apply (.inl rfl) step) made
      rw [List.append_assoc] at more
      exact more

inductive Access : Option JsonPath → Grouping → Prop where
  | column (name : List Lexeme) : Access none (.operand name)
  | path {path : JsonPath} {symbol : String} {front : Grouping} {step : List Lexeme}
      (arrowed : Arrowed (.apply symbol front (.operand step))) :
      Access (some path) (.apply symbol front (.operand step))

theorem Access.arrowed {path : Option JsonPath} (access : Access path g) : Arrowed g := by
  cases access with
  | column name => exact .operand name
  | path arrowed => exact arrowed

theorem Field.reads_access {f : Field} {column : Sql} (made : f.render .postgres = .ok column)
    (spell : Hole → String) :
    ∃ access, Access f.path access ∧ access.Reads (column.lexemes spell) := by
  obtain ⟨steps, walked, rfl⟩ := Field.render_ok_iff.mp made
  cases given : f.path with
  | none =>
    obtain rfl : steps = [] := by simpa [given, Dialect.pathSteps, eq_comm] using walked
    rw [List.append_nil]
    exact ⟨_, .column _, f.reads_column⟩
  | some path =>
    simp only [given, Dialect.pathSteps, Dialect.jsonAccess] at walked
    split at walked
    · cases walked
    · rename_i full
      simp only [Except.bind_eq_ok, pure, Except.pure, Except.ok.injEq, List.nil_append] at walked
      obtain ⟨-, -, rfl⟩ := walked
      obtain ⟨symbol, front, step, arrowed, reads⟩ :=
        reads_pathHops path.asText (by simpa using full) (.operand _) f.reads_column
      exact ⟨_, .path arrowed, reads⟩

theorem reads_placeholder (marked : SpelledMarked spell) (c : Context) (p : Param) :
    (Grouping.operand ((c.placeholder p).lexemes spell)).Reads
      ((c.placeholder p).lexemes spell) := by
  obtain ⟨mark, word, spelled, sigil⟩ := marked.2 ⟨c.depth, p⟩
  have lexed : (c.placeholder p).lexemes spell = [.word (mark :: word)] := by
    rw [Context.placeholder, Sql.lexemes_hole_cons, Sql.lexemes_nil,
      foldr_gather_word (marked.1 _) (by simp [spelled]), spelled]
  rw [lexed]
  exact .operand (by simp) (by simpa using Lexeme.isOperand_of_bare (isBare_of_sigil sigil word))

end Fields

section Expressions
variable {spell : Hole → String} {s t : Sql} {g : Grouping}

theorem groupText_write (inert : SpelledInert spell) (phrase : Phrase s)
    (reads : g.Reads (s.lexemes spell)) (respects : g.Respects) :
    groupText (s.write .postgres spell) = some g := by
  obtain ⟨e, -, walked⟩ := phrase (.before .field) 0 rfl
  rw [groupText, lex_write inert walked, Option.bind_some]
  exact reads.group_eq respects

theorem BinaryOp.strength_le_iff (op : BinaryOp) :
    strength op.symbol ≤ 2 ↔ op.isArithmetic = false := by
  cases op <;> decide

theorem BinaryOp.le_strength (op : BinaryOp) : 2 ≤ strength op.symbol := by
  cases op <;> decide

theorem Operator.strength_le {op : Operator}
    (comparing : (op.isComparison || op.isPattern) = true) : strength op.symbol ≤ 1 := by
  cases op <;> first | decide | cases comparing

theorem compareSides_postgres {op : Operator} (comparing : (op.isComparison || op.isPattern) = true)
    (left right : Sql) :
    compareSides .postgres left op right = left ++ sql (" " ++ op.symbol ++ " ") ++ right := by
  cases op <;> first | rfl | cases comparing

theorem Dialect.binary_postgres (left right : Sql) (op : BinaryOp) :
    Dialect.postgres.binary left op right =
      .ok (left ++ sql (" " ++ op.symbol ++ " ") ++ right) := by
  cases op <;> rfl

theorem Sql.lexemes_spaced (left right : Sql) (symbol : String) :
    (left ++ sql (" " ++ symbol ++ " ") ++ right).lexemes spell =
      left.lexemes spell ++ ((" " ++ symbol ++ " ").toList.foldr gather [] ++
        right.lexemes spell) := by
  have blank : isInert ' ' = false := by decide
  have begins : opened (" " ++ symbol ++ " ").toList = true := by simp [opened, blank]
  have ends : closed (" " ++ symbol ++ " ").toList = true := by
    rw [closed, String.toList_append, List.getLast?_append]
    simp [blank]
  exact Sql.lexemes_linked begins ends

theorem Grouping.Reads.spaced {left right : Sql} {symbol : String}
    (reads : g.Reads (left.lexemes spell))
    (operates : Operates symbol ((" " ++ symbol ++ " ").toList.foldr gather []))
    (follows : (Grouping.operand (right.lexemes spell)).Reads (right.lexemes spell)) :
    (g.extend symbol (right.lexemes spell)).Reads
      ((left ++ sql (" " ++ symbol ++ " ") ++ right).lexemes spell) := by
  rw [Sql.lexemes_spaced]
  exact reads.extend operates follows

theorem Arrowed.extend_eq {symbol : String} {front : Grouping} {step : List Lexeme}
    (arrowed : Arrowed (.apply symbol front (.operand step))) (op : BinaryOp)
    (right : List Lexeme) :
    (Grouping.apply symbol front (.operand step)).extend op.symbol right =
      if op.isArithmetic then
        .apply symbol front (.apply op.symbol (.operand step) (.operand right))
      else .apply op.symbol (.apply symbol front (.operand step)) (.operand right) := by
  have alike : strength symbol = 2 := arrowed.strength_eq (by simp [Grouping.operators])
  simp only [Grouping.extend, alike, op.strength_le_iff]
  cases op.isArithmetic <;> rfl

theorem Access.extend_eq_apply_iff {path : Option JsonPath} (access : Access path g) (op : BinaryOp)
    (right : List Lexeme) :
    g.extend op.symbol right = .apply op.symbol g (.operand right) ↔
      path = none ∨ op.isArithmetic = false := by
  cases access with
  | column name => exact iff_of_true rfl (.inl rfl)
  | @path _ symbol front step arrowed =>
    rw [arrowed.extend_eq]
    cases arithmetic : op.isArithmetic with
    | false => simp
    | true =>
      have alike : strength symbol = 2 := arrowed.strength_eq (by simp [Grouping.operators])
      have apart : symbol ≠ op.symbol := by
        rintro rfl
        simp [op.strength_le_iff.mp alike.le] at arithmetic
      simp [apart]

theorem Access.extend_eq_step {path : Option JsonPath} (access : Access path g) {op : BinaryOp}
    (given : path ≠ none) (arithmetic : op.isArithmetic = true) (right : List Lexeme) :
    ∃ arrow front step, g = .apply arrow front step ∧
      g.extend op.symbol right = .apply arrow front (.apply op.symbol step (.operand right)) := by
  cases access with
  | column => exact absurd rfl given
  | path arrowed => exact ⟨_, _, _, rfl, by rw [arrowed.extend_eq, if_pos arithmetic]⟩

theorem Expr.reads_binary {c : Context} {f : Field} {op : BinaryOp} {p : Param}
    (postgres : c.dialect = .postgres) (marked : SpelledMarked spell)
    (made : Renders c (.expr (.binary f op p)) s) :
    ∃ column, f.render .postgres = .ok column ∧
      ∀ access : Grouping, access.Reads (column.lexemes spell) →
        (access.extend op.symbol ((c.placeholder p).lexemes spell)).Reads (s.lexemes spell) := by
  cases made with
  | @binary _ _ _ _ column _ columned _ joined =>
    rw [postgres] at columned joined
    rw [Dialect.binary_postgres, Except.ok.injEq] at joined
    refine ⟨column, columned, fun access reads => ?_⟩
    rw [← joined]
    exact reads.spaced (.binary op) (reads_placeholder marked c p)

theorem Condition.reads_comparison {c : Context} {scope : Scope} {nested : Bool} {e : Expr}
    {op : Operator} {p : Param} (postgres : c.dialect = .postgres) (marked : SpelledMarked spell)
    (made : Renders c (.condition scope nested (.expression e op p)) t)
    (computed : Renders c (.expr e) s) (reads : g.Reads (s.lexemes spell)) (respects : g.Respects)
    (tight : ∀ symbol ∈ g.operators, 2 ≤ strength symbol) :
    groupText (t.write .postgres spell) =
      some (.apply op.symbol g (.operand ((c.placeholder p).lexemes spell))) := by
  have phrase : Phrase t := made.laid
  cases made with
  | @expression _ _ _ _ _ _ left comparing _ compared _ =>
    have same : left = s := by
      have first := compared.render_eq
      rw [computed.render_eq] at first
      simpa using (congrArg Render.result first).symm
    subst same
    rw [postgres, compareSides_postgres comparing] at phrase ⊢
    have extended := reads.spaced (.comparison comparing) (reads_placeholder marked c p)
    have loose : ∀ symbol ∈ g.operators, strength op.symbol ≤ strength symbol := by
      intro symbol member
      have weak : strength op.symbol ≤ 1 := Operator.strength_le comparing
      have strong : 2 ≤ strength symbol := tight symbol member
      omega
    rw [← Grouping.extend_eq_apply loose]
    have known : isOperator op.symbol = true := by cases op <;> first | decide | cases comparing
    exact groupText_write marked.1 phrase extended (respects.extend known)

end Expressions

/-- What is computed of a field and a parameter groups as built if the field is a plain column or
    the operator binds no tighter than the arrows of a path. A sum or product takes the last step
    of a path only, and comparisons take what is computed as it groups. -/
theorem Expr.binary_grouping {c : Context} {f : Field} {op : BinaryOp} {p : Param} {s : Sql}
    (postgres : c.dialect = .postgres)
    (rendered : ((Expr.binary f op p).render c).result = .ok s) (params : ParamSet) :
    let text (part : Sql) := part.write .postgres (spellHole .postgres c.style params)
    ∃ column access placeholder computed,
      f.render .postgres = .ok column ∧
      groupText (text column) = some access ∧
      groupText (text (c.placeholder p)) = some placeholder ∧
      groupText (text s) = some computed ∧
      (computed = .apply op.symbol access placeholder ↔
        f.path = none ∨ op.isArithmetic = false) ∧
      (f.path ≠ none → op.isArithmetic = true → ∃ arrow front step,
        access = .apply arrow front step ∧
          computed = .apply arrow front (.apply op.symbol step placeholder)) ∧
      ∀ scope nested comparison q t,
        ((Condition.expression (.binary f op p) comparison q).render c scope nested).result =
            .ok t →
          ∃ bound, groupText (text (c.placeholder q)) = some bound ∧
            groupText (text t) = some (.apply comparison.symbol computed bound) := by
  intro text
  let spell := spellHole .postgres c.style params
  have marked : SpelledMarked spell := spellHole_marked ..
  have made : Renders c (.expr (.binary f op p)) s :=
    (Part.expr (.binary f op p)).derivable c s rendered
  obtain ⟨column, columned, extended⟩ := Expr.reads_binary postgres marked made
  obtain ⟨g, access, reads⟩ := Field.reads_access columned spell
  let bound (q : Param) := (c.placeholder q).lexemes spell
  have placeholder (q : Param) : groupText (text (c.placeholder q)) = some (.operand (bound q)) :=
    groupText_write marked.1 (.placeholder c q) (reads_placeholder marked c q) trivial
  have known : isOperator op.symbol = true := by cases op <;> decide
  have respects : (g.extend op.symbol (bound p)).Respects := access.arrowed.1.extend known
  refine ⟨column, g, .operand (bound p), g.extend op.symbol (bound p), columned,
    groupText_write marked.1 (.field columned) reads access.arrowed.1, placeholder p,
    groupText_write marked.1 made.laid (extended g reads) respects,
    access.extend_eq_apply_iff op (bound p), fun given arithmetic => ?_, ?_⟩
  · exact access.extend_eq_step given arithmetic (bound p)
  · intro scope nested comparison q t compared
    have derived := (Part.condition (.expression (.binary f op p) comparison q)).derivable c scope
      nested t compared
    have tight : ∀ symbol ∈ (g.extend op.symbol (bound p)).operators, 2 ≤ strength symbol := by
      intro symbol member
      rcases Grouping.mem_operators_extend.mp member with member | rfl
      · exact (access.arrowed.strength_eq member).ge
      · exact op.le_strength
    exact ⟨.operand (bound q), placeholder q,
      Condition.reads_comparison postgres marked derived made (extended g reads) respects tight⟩

def sizeInside : Field := { name := "d", path := some ⟨[.key ⟨"size", by decide⟩], false⟩ }

def extraParam : Param := ⟨"extra", by decide⟩

theorem joinedSize_grouping :
    ∃ s access placeholder,
      ((Expr.binary sizeInside .concat extraParam).render (.top {})).result = .ok s ∧
        groupText "\x22d\x22->'size'" = some access ∧ groupText ":extra" = some placeholder ∧
        groupText "\x22d\x22->'size' || :extra" = some (.apply "||" access placeholder) := by
  have rendered : ((Expr.binary sizeInside .concat extraParam).render (.top {})).result =
      .ok _ := rfl
  obtain ⟨column, access, placeholder, computed, columned, field, param, whole, built, -⟩ :=
    Expr.binary_grouping rfl rendered .empty
  obtain rfl := built.mpr (.inr rfl)
  cases columned
  exact ⟨_, access, placeholder, rendered, field, param, whole⟩

/-- A sum over a path takes its last step alone. -/
theorem addedSize_regrouped :
    ((Expr.binary sizeInside .add extraParam).render (.top {})).result =
        .ok [.name .field "d", .text "->", .literal "size", .text " + ", .hole ⟨0, extraParam⟩] ∧
      ¬∀ (c : Context) (f : Field) (op : BinaryOp) (p : Param) (s : Sql), c.dialect = .postgres →
        ((Expr.binary f op p).render c).result = .ok s → ∀ params : ParamSet,
          let text (part : Sql) := part.write .postgres (spellHole .postgres c.style params)
          ∃ column access placeholder, f.render .postgres = .ok column ∧
            groupText (text column) = some access ∧
            groupText (text (c.placeholder p)) = some placeholder ∧
            groupText (text s) = some (.apply op.symbol access placeholder) := by
  refine ⟨rfl, fun built => ?_⟩
  obtain ⟨column, access, placeholder, -, -, -, whole⟩ :=
    built (.top {}) sizeInside .add extraParam _ rfl rfl .empty
  have read : groupText "\x22d\x22->'size' + :extra" =
      some (.apply "->" (.operand [.name "d"])
        (.apply "+" (.operand [.literal "size"]) (.operand [.word ":extra".toList]))) := by
    decide +kernel
  have same : some (Grouping.apply "->" _ _) = some (.apply "+" access placeholder) :=
    read.symm.trans whole
  simp at same

end TypedSql
