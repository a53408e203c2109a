import Mathlib.Data.List.Dedup
import TypedSql.Proofs.Sql.Choice

namespace TypedSql

inductive TallyFunction where
  | sum | avg | min | max | count
  deriving DecidableEq

/-- What an aggregate is taken of: a value of each row, or a value for some of the rows. -/
inductive Argument where
  | value (text : String)
  | chosen (condition value : String)
  deriving DecidableEq

/-- An aggregate as far as it says which values it takes. Without an argument it counts rows. -/
structure Tally where
  function : TallyFunction
  distinct : Bool
  argument : Option Argument
  filter : Option String
  deriving DecidableEq

/-- What the conditions and values of a text are for each row. A value that is absent is null. -/
structure Meaning (Row V : Type) where
  holds : String → Row → Truth
  value : String → Row → Option V

/-- Aggregates as functions of the values that are not null. -/
structure Domain (V : Type) where
  number : Nat → V
  sum : List V → Option V
  avg : List V → Option V
  min : List V → Option V
  max : List V → Option V

section Evaluation
variable {Row V : Type}

def Domain.apply (D : Domain V) : TallyFunction → List V → Option V
  | .sum => D.sum
  | .avg => D.avg
  | .min => D.min
  | .max => D.max
  | .count => fun values => some (D.number values.length)

def Meaning.keeps (M : Meaning Row V) (condition : String) (row : Row) : Bool :=
  M.holds condition row == .true

/-- A choice without an alternative is null where its condition is not true. -/
def Argument.of (M : Meaning Row V) : Argument → Row → Option V
  | .value text, row => M.value text row
  | .chosen condition text, row => if M.keeps condition row then M.value text row else none

/-- A filter keeps the rows where its condition is true. Nulls are skipped, rows are counted. -/
def Tally.result [DecidableEq V] (D : Domain V) (M : Meaning Row V) (t : Tally) (rows : List Row) :
    Option V :=
  let kept := rows.filter fun row => t.filter.all fun condition => M.keeps condition row
  match t.argument with
  | none => some (D.number kept.length)
  | some argument =>
    let values := kept.filterMap (argument.of M)
    D.apply t.function (if t.distinct then values.dedup else values)

variable {M N : Meaning Row V} {condition condition' text text' : String}

theorem filterMap_chosen (kept : M.keeps condition = N.keeps condition')
    (valued : M.value text = N.value text') (rows : List Row) :
    (rows.filter (M.keeps condition)).filterMap ((Argument.value text).of M) =
      rows.filterMap ((Argument.chosen condition' text').of N) := by
  rw [List.filterMap_filter]
  congr 1
  funext row
  simp only [Argument.of, kept, valued]

theorem Tally.result_chosen [DecidableEq V] (D : Domain V) (function : TallyFunction)
    (distinct : Bool) (kept : M.keeps condition = N.keeps condition')
    (valued : M.value text = N.value text') (rows : List Row) :
    (Tally.mk function distinct (some (.value text)) (some condition)).result D M rows =
      (Tally.mk function distinct (some (.chosen condition' text')) none).result D N rows := by
  have values := filterMap_chosen kept valued rows
  simp only [Tally.result, Option.all_some, Option.all_none, List.filter_true, values]

theorem Tally.result_counted [DecidableEq V] (D : Domain V)
    (kept : M.keeps condition = N.keeps condition') (valued : ∀ row, N.value text row ≠ none)
    (rows : List Row) :
    (Tally.mk .count false none (some condition)).result D M rows =
      (Tally.mk .count false (some (.chosen condition' text)) none).result D N rows := by
  have counted : (rows.filter (M.keeps condition)).length =
      (rows.filterMap ((Argument.chosen condition' text).of N)).length := by
    rw [← List.countP_eq_length_filter, List.length_filterMap_eq_countP, kept]
    refine List.countP_congr fun row _ => ?_
    obtain ⟨v, given⟩ := Option.ne_none_iff_exists'.mp (valued row)
    cases keeps : N.keeps condition' row <;> simp [Argument.of, keeps, given]
  simp only [Tally.result, Option.all_some, Option.all_none, List.filter_true, counted,
    Domain.apply, Bool.false_eq_true, if_false]

end Evaluation

def tallyFunction? (w : List Char) : Option TallyFunction :=
  let upper := w.map Char.toUpper
  if upper = "SUM".toList then some .sum
  else if upper = "AVG".toList then some .avg
  else if upper = "MIN".toList then some .min
  else if upper = "MAX".toList then some .max
  else if upper = "COUNT".toList then some .count
  else none

def afterWord (word : String) : List Lexeme → Option (List Lexeme)
  | .word w :: rest => if w.map Char.toUpper = word.toList then some rest else none
  | _ => none

def afterSign (c : Char) : List Lexeme → Option (List Lexeme)
  | .sign s :: rest => if s = c then some rest else none
  | _ => none

def beforeBlank (d : Dialect) (ls : List Lexeme) : Option String :=
  if ls.getLast? = some (.sign ' ') then some (spelled d ls.dropLast) else none

def readChoice (d : Dialect) (ls : List Lexeme) : Option (String × String) := do
  let ls ← afterWord "CASE" ls
  let ls ← afterSign ' ' ls
  let ls ← afterWord "WHEN" ls
  let ls ← afterSign ' ' ls
  let condition ← beforeBlank d (expression {} ls).1
  let ls ← afterWord "THEN" (expression {} ls).2
  let ls ← afterSign ' ' ls
  let value ← beforeBlank d (expression {} ls).1
  let ls ← afterWord "END" (expression {} ls).2
  if ls = [] then some (condition, value) else none

/-- Rows can only be counted, and each counts once. -/
def readArgument (d : Dialect) (function : TallyFunction) (distinct : Bool) (ls : List Lexeme) :
    Option (Option Argument) :=
  if ls = [.sign '*'] then
    if function = .count ∧ distinct = false then some none else none
  else match readChoice d ls with
    | some (condition, value) => some (some (.chosen condition value))
    | none => some (some (.value (spelled d ls)))

def readFilter (d : Dialect) (ls : List Lexeme) : Option (Option String) :=
  if ls = [] then some none
  else do
    let ls ← afterSign ' ' ls
    let ls ← afterWord "FILTER" ls
    let ls ← afterSign ' ' ls
    let ls ← afterSign '(' ls
    let ls ← afterWord "WHERE" ls
    let ls ← afterSign ' ' ls
    let rest ← afterSign ')' (expression {} ls).2
    if rest = [] then some (some (spelled d (expression {} ls).1)) else none

def readTally (d : Dialect) : List Lexeme → Option Tally
  | .word w :: .sign '(' :: ls => do
    let function ← tallyFunction? w
    let distinct := (afterWord "DISTINCT" ls).bind (afterSign ' ')
    let ls := distinct.getD ls
    let argument ← readArgument d function distinct.isSome (expression {} ls).1
    let rest ← afterSign ')' (expression {} ls).2
    let filter ← readFilter d rest
    some ⟨function, distinct.isSome, argument, filter⟩
  | _ => none

section Reading
variable {d : Dialect} {ls rest condition value : List Lexeme}

def choiceLexemes (condition value : List Lexeme) : List Lexeme :=
  .word "CASE".toList :: .sign ' ' :: .word "WHEN".toList :: .sign ' ' ::
    (condition ++ .sign ' ' :: .word "THEN".toList :: .sign ' ' ::
      (value ++ .sign ' ' :: .word "END".toList :: []))

theorem beforeBlank_append : beforeBlank d (ls ++ [Lexeme.sign ' ']) = some (spelled d ls) := by
  simp [beforeBlank]

theorem expression_word (w : List Char) (weighs : weigh {} ls = some {})
    (stuck : Depth.step {} (.word w) = none) (rest : List Lexeme) :
    expression {} (ls ++ Lexeme.sign ' ' :: .word w :: rest) =
      (ls ++ [Lexeme.sign ' '], .word w :: rest) := by
  have blank : weigh {} [.sign ' '] = some {} := by decide
  have read : expression {} (ls ++ [Lexeme.sign ' '] ++ Lexeme.word w :: rest) = _ :=
    expression_append (weigh_append weighs blank) stuck
  rwa [List.append_assoc] at read

@[simp] theorem afterSign_cons (c : Char) : afterSign c (.sign c :: ls) = some ls := by
  simp [afterSign]

theorem afterWord_cons (word : String) (capital : word.toList.map Char.toUpper = word.toList)
    (ls : List Lexeme) : afterWord word (.word word.toList :: ls) = some ls := by
  simp [afterWord, capital]

theorem readChoice_eq (first : weigh {} condition = some {}) (second : weigh {} value = some {}) :
    readChoice d (choiceLexemes condition value) =
      some (spelled d condition, spelled d value) := by
  have upToThen := expression_word "THEN".toList first (by decide)
  have upToEnd := expression_word "END".toList second (by decide)
  have opening := afterWord_cons "CASE" (by decide)
  have branch := afterWord_cons "WHEN" (by decide)
  have middle := afterWord_cons "THEN" (by decide)
  have closing := afterWord_cons "END" (by decide)
  simp only [readChoice, choiceLexemes, opening, branch, afterSign_cons, upToThen, middle, upToEnd,
    closing, beforeBlank_append, Option.bind_eq_bind, Option.bind_some, if_true]

theorem weigh_choice (first : weigh {} condition = some {}) (second : weigh {} value = some {}) :
    weigh {} (choiceLexemes condition value) = some {} := by
  have opening : weigh {} [.word "CASE".toList, .sign ' ', .word "WHEN".toList, .sign ' '] =
      some ⟨0, 1⟩ := by decide
  have middle : weigh ⟨0, 1⟩ [.sign ' ', .word "THEN".toList, .sign ' '] = some ⟨0, 1⟩ := by decide
  have closing : weigh ⟨0, 1⟩ [.sign ' ', .word "END".toList] = some {} := by decide
  have finish := weigh_append middle (weigh_append (weigh_shift second 1) closing)
  have whole := weigh_append opening (weigh_append (weigh_shift first 1) finish)
  exact whole

theorem readFilter_eq (weighs : weigh {} condition = some {}) :
    readFilter d (.sign ' ' :: .word "FILTER".toList :: .sign ' ' :: .sign '(' ::
      .word "WHERE".toList :: .sign ' ' :: (condition ++ [Lexeme.sign ')'])) =
      some (some (spelled d condition)) := by
  have bracket : expression {} (condition ++ [Lexeme.sign ')']) = (condition, [.sign ')']) :=
    expression_append weighs (by decide)
  have outer := afterWord_cons "FILTER" (by decide)
  have inner := afterWord_cons "WHERE" (by decide)
  simp only [readFilter, reduceCtorEq, if_false, outer, inner, afterSign_cons, bracket,
    Option.bind_eq_bind, Option.bind_some, if_true]

theorem afterWord_distinct (weighs : weigh {} ls = some {}) (rest : List Lexeme) :
    afterWord "DISTINCT" (ls ++ Lexeme.sign ')' :: rest) = none := by
  cases ls with
  | nil => rfl
  | cons x ls =>
    cases x with
    | word w =>
      obtain ⟨next, stepped, -⟩ := Option.bind_eq_some_iff.mp (weigh_cons ▸ weighs)
      refine if_neg fun same => ?_
      have stuck : (Mark.word "DISTINCT".toList).step 0 = none := by decide
      obtain ⟨-, -, counted⟩ := Depth.step_eq_some.mp stepped
      have counted : (Mark.word (w.map Char.toUpper)).step 0 = some next.choices := counted
      rw [same, stuck] at counted
      cases counted
    | _ => rfl

theorem readTally_eq {name : List Char} {function : TallyFunction} {distinct : Bool}
    {argument : Option Argument} {filter : Option String}
    (named : tallyFunction? name = some function) (weighs : weigh {} ls = some {})
    (taken : readArgument d function distinct ls = some argument)
    (filtered : readFilter d rest = some filter) :
    readTally d (.word name :: .sign '(' ::
      ((if distinct then [Lexeme.word "DISTINCT".toList, .sign ' '] else []) ++
        (ls ++ Lexeme.sign ')' :: rest))) = some ⟨function, distinct, argument, filter⟩ := by
  have bracket : expression {} (ls ++ Lexeme.sign ')' :: rest) = (ls, .sign ')' :: rest) :=
    expression_append weighs (by decide)
  cases distinct with
  | true =>
    have apart := afterWord_cons "DISTINCT" (by decide)
    simp only [if_true, List.cons_append, List.nil_append, readTally, named, apart, afterSign_cons,
      Option.bind_eq_bind, Option.bind_some, Option.getD_some, Option.isSome_some, bracket, taken,
      filtered]
  | false =>
    have plain := afterWord_distinct weighs rest
    simp only [Bool.false_eq_true, if_false, List.nil_append, readTally, named, plain,
      afterSign_cons, Option.bind_eq_bind, Option.bind_none, Option.bind_some, Option.getD_none,
      Option.isSome_none, bracket, taken, filtered]

end Reading

end TypedSql
