import TypedSql.Proofs.Letters
import TypedSql.Proofs.Script.Layout
import TypedSql.Proofs.Script.Steady

namespace TypedSql.Script
open Reader

def IsName (cs : List Char) : Prop := cs ≠ [] ∧ ∀ c ∈ cs, c.isAlphanum = true ∨ c = '_'

def IsGap (cs : List Char) : Prop := cs ≠ [] ∧ ∀ c ∈ cs, c ∈ [' ', '\t']

def IsBlanks (cs : List Char) : Prop := cs ≠ [] ∧ ∀ c ∈ cs, c ∈ [' ', '\t', '\r', '\n']

instance (cs : List Char) : Decidable (IsName cs) :=
  @instDecidableAnd _ _ _ (List.decidableBAll _ cs)

instance (cs : List Char) : Decidable (IsBlanks cs) :=
  @instDecidableAnd _ _ _ (List.decidableBAll _ cs)

/-- Blanks, and comments up to the ends of their lines, in any order. -/
inductive Skipped : List Char → Prop where
  | nil : Skipped []
  | blank {c rest} (blank : c ∈ [' ', '\t', '\r', '\n']) (skipped : Skipped rest) :
      Skipped (c :: rest)
  | comment {line newline rest} (within : ∀ c ∈ line, c ≠ '\r' ∧ c ≠ '\n')
      (ended : newline = ['\n'] ∨ newline = ['\r', '\n']) (skipped : Skipped rest) :
      Skipped ('-' :: '-' :: line ++ newline ++ rest)

/-- What may stand before each part of a table. No comment follows a part directly. -/
inductive IsLayout : List Char → Prop where
  | nil : IsLayout []
  | blank {c rest} (blank : c ∈ [' ', '\t', '\r', '\n']) (skipped : Skipped rest) :
      IsLayout (c :: rest)

/-- A word, perhaps with something in brackets, perhaps with the mark of an array. -/
inductive IsType : List Char → Prop where
  | mk {name arguments mark : List Char} (named : IsName name)
      (given : arguments = [] ∨
        ∃ inner, inner ≠ [] ∧ ')' ∉ inner ∧ arguments = '(' :: inner ++ [')'])
      (marked : mark = [] ∨ mark = ['[', ']']) : IsType (name ++ arguments ++ mark)

inductive IsTarget : List Char → Prop where
  | mk {table column : List Char} (named : IsName table)
      (given : column = [] ∨ ∃ inner, IsName inner ∧ column = '(' :: inner ++ [')']) :
      IsTarget (table ++ column)

def IsDefault (cs : List Char) : Prop :=
  cs ≠ [] ∧ ∀ c ∈ cs, isBlank c = false ∧ c ≠ ',' ∧ c ≠ ')'

instance (cs : List Char) : Decidable (IsDefault cs) :=
  @instDecidableAnd _ _ _ (List.decidableBAll _ cs)

/-- A constraint in one of its spellings. -/
inductive Spells : Constraint → List Char → Prop where
  | primaryKey {cs} (joined : AnyCase "primary_key".toList cs) : Spells .primaryKey cs
  | primaryKeyApart {first gap second} (primary : AnyCase "primary".toList first)
      (apart : IsGap gap) (key : AnyCase "key".toList second) :
      Spells .primaryKey (first ++ gap ++ second)
  | notNull {cs} (joined : AnyCase "not_null".toList cs) : Spells .notNull cs
  | notNullApart {first gap second} (not : AnyCase "not".toList first) (apart : IsGap gap)
      (null : AnyCase "null".toList second) : Spells .notNull (first ++ gap ++ second)
  | unique {cs} (unique : AnyCase "unique".toList cs) : Spells .unique cs
  | references {word gap : List Char} {target : String}
      (references : AnyCase "references".toList word) (apart : IsGap gap)
      (targeted : IsTarget target.toList) : Spells (.references target) (word ++ gap ++ target.toList)
  | default {word gap : List Char} {value : String} (default : AnyCase "default".toList word)
      (apart : IsGap gap) (valued : IsDefault value.toList) :
      Spells (.default value) (word ++ gap ++ value.toList)

/-- That a column is held to these constraints, in whatever order they come. -/
structure Describes (constraints : List Constraint) (column : ColumnDef) : Prop where
  primaryKey : column.primaryKey = true ↔ .primaryKey ∈ constraints
  nullable : column.nullable = false ↔ .primaryKey ∈ constraints ∨ .notNull ∈ constraints
  unique : column.unique = true ↔ .unique ∈ constraints
  references : ∀ target, column.references = some target ↔ .references target ∈ constraints
  default : ∀ value, column.defaultValue = some value ↔ .default value ∈ constraints

/-- The text of a column: its name, its type, and its constraints in any order. -/
inductive WritesColumn : ColumnDef → List Char → Prop where
  | mk {column : ColumnDef} {gap : List Char} {constraints : List (Constraint × List Char)}
      (named : IsName column.name.toList) (apart : IsGap gap) (typed : IsType column.type.toList)
      (lower : lowercase column.type.toList = column.type.toList)
      (spelled : ∀ x ∈ constraints, ∃ gap text, IsGap gap ∧ Spells x.1 text ∧ x.2 = gap ++ text)
      (described : Describes (constraints.map Prod.fst) column) :
      WritesColumn column
        (column.name.toList ++ gap ++ column.type.toList ++ constraints.flatMap Prod.snd)

inductive WritesFurther : List ColumnDef → List Char → Prop where
  | nil : WritesFurther [] []
  | cons {column columns before after text rest} (toComma : IsLayout before)
      (toColumn : IsLayout after) (written : WritesColumn column text)
      (further : WritesFurther columns rest) :
      WritesFurther (column :: columns) (before ++ ',' :: after ++ text ++ rest)

inductive WritesColumns : List ColumnDef → List Char → Prop where
  | nil : WritesColumns [] []
  | cons {column columns before text rest} (toColumn : IsLayout before)
      (written : WritesColumn column text) (further : WritesFurther columns rest) :
      WritesColumns (column :: columns) (before ++ text ++ rest)

inductive WritesTable : TableDef → List Char → Prop where
  | mk {table : TableDef} {word blanks before columns after : List Char}
      (begun : AnyCase "table".toList word) (apart : IsBlanks blanks)
      (named : IsName table.name.toList) (toOpening : IsLayout before)
      (written : WritesColumns table.columns columns) (toClosing : IsLayout after) :
      WritesTable table
        (word ++ blanks ++ table.name.toList ++ before ++ '(' :: columns ++ after ++ [')'])

/-- The text of a schema. What stands between the parts of a table and between tables is left
    open. -/
inductive Writes : List TableDef → List Char → Prop where
  | nil {last} (toEnd : IsLayout last) : Writes [] last
  | cons {table tables before text rest} (toTable : IsLayout before)
      (written : WritesTable table text) (further : Writes tables rest) :
      Writes (table :: tables) (before ++ text ++ rest)

section Skipping
variable {layout text : List Char} {c : Char}

theorem IsLayout.skipped (laid : IsLayout layout) : Skipped layout := by
  cases laid with
  | nil => exact .nil
  | blank blank skipped => exact .blank blank skipped

theorem skipFrom_inside {start line newline : List Char}
    (within : ∀ c ∈ line, c ≠ '\r' ∧ c ≠ '\n') (ended : newline = ['\n'] ∨ newline = ['\r', '\n']) :
    skipFrom (some start) (line ++ newline ++ text) = skipFrom none text := by
  induction line with
  | nil =>
    rcases ended with rfl | rfl
    · exact skipFrom_line
    · exact skipFrom_lineFeed
  | cons c line ih =>
    rcases List.forall_mem_cons.mp within with ⟨first, others⟩
    rw [List.cons_append, List.cons_append, skipFrom_text first, ih others]

theorem Skipped.skipLayout (skipped : Skipped layout) :
    skipLayout (layout ++ text) = Script.skipLayout text := by
  induction skipped with
  | nil => rfl
  | @blank c rest blank _ ih =>
    have passed : isLayout c = true := by
      have each : [' ', '\t', '\r', '\n'].all isLayout = true := by decide
      exact List.all_eq_true.mp each c blank
    exact (skipFrom_blank passed).trans ih
  | @comment line newline rest within ended _ ih =>
    have inside (start : List Char) :
        skipFrom (some start) (line ++ newline ++ (rest ++ text)) = skipFrom none (rest ++ text) :=
      skipFrom_inside within ended
    simp only [List.cons_append, List.append_assoc] at inside ⊢
    exact (skipFrom_comment.trans (inside _)).trans ih

theorem skipLayout_solid (solid : isLayout c = false) (other : c ≠ '-') :
    skipLayout (c :: text) = c :: text := skipFrom_solid solid other

end Skipping
end TypedSql.Script
