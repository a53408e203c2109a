import TypedSql.Proofs.Script.Layout
import TypedSql.Proofs.Script.Steady

namespace TypedSql.Script
open Reader

section Columns
variable {text rest : List Char} {made : ColumnDef}

def columnBody (name : List Char) : Reader ColumnDef :=
  gap.andThen fun _ text =>
    (columnType text).map fun next =>
      ((many nextConstraint next.2).1.foldl Constraint.apply
          { name := String.ofList name, type := String.ofList (lowercase next.1) },
        (many nextConstraint next.2).2)

def bareColumn : Reader ColumnDef := word.andThen columnBody

theorem column_eq (text : List Char) : column text = bareColumn (skipLayout text) := by
  simp only [column, bareColumn, columnBody, Reader.andThen]
  cases word (skipLayout text) with
  | none => rfl
  | some name =>
    cases found : gap name.2 with
    | none => simp [found]
    | some next => cases found' : columnType next.2 <;> simp [found, found']

theorem steady_columnBody (name : List Char) : (columnBody name).Steady := by
  have constraints := steady_nextConstraint.many nextConstraint_takes
  have typed := steady_columnType.andTotal (fun type constraints =>
    constraints.foldl Constraint.apply
      ({ name := String.ofList name, type := String.ofList (lowercase type) } : ColumnDef)) constraints
  exact steady_gap.andThen (Spares.run1 (by decide)) fun _ => typed

theorem steady_bareColumn : bareColumn.Steady :=
  steady_word.andThen (Spares.run1 (by decide)) steady_columnBody

theorem bareColumn_takes : bareColumn.Takes :=
  Takes.of_suffix run1_takes fun {name} => (steady_columnBody name).suffix

theorem solid_of_word {taken : List Char} (read : word text = some (taken, rest)) :
    ∃ c more, text = c :: more ∧ c ≠ '-' := by
  rcases run1_eq_some.mp read with ⟨rfl, -, full⟩
  cases text with
  | nil => exact absurd rfl full
  | cons c text =>
    refine ⟨c, text, rfl, ?_⟩
    rintro rfl
    exact full rfl

theorem column_append (read : column text = some (made, rest)) (closing : ')' ∈ rest)
    (more : List Char) : column (text ++ more) = some (made, rest ++ more) := by
  rw [column_eq] at read ⊢
  rcases andThen_eq_some.mp read with ⟨name, after, named, -⟩
  rcases solid_of_word named with ⟨c, left, begins, other⟩
  rw [skipLayout_append begins other, ← begins]
  exact steady_bareColumn.same read closing more

theorem column_takes : column.Takes := by
  intro text made rest read
  rw [column_eq] at read
  rcases bareColumn_takes read with ⟨taken, full, split⟩
  rcases skipLayout_suffix text with ⟨layout, whole⟩
  exact ⟨layout ++ taken, by simp [full], by rw [← whole, split, List.append_assoc]⟩

theorem nextColumn_eq_some :
    nextColumn text = some (made, rest) ↔
      ∃ left, skipLayout text = ',' :: left ∧ column left = some (made, rest) := by
  simp [nextColumn, Option.bind_eq_some_iff, exactly_eq_some]

theorem nextColumn_takes : nextColumn.Takes := by
  intro text made rest read
  rcases nextColumn_eq_some.mp read with ⟨left, comma, read⟩
  rcases column_takes read with ⟨taken, full, rfl⟩
  rcases skipLayout_suffix text with ⟨layout, whole⟩
  exact ⟨layout ++ ',' :: taken, by simp, by rw [← whole, comma]; simp⟩

theorem nextColumn_append (read : nextColumn text = some (made, rest)) (closing : ')' ∈ rest)
    (more : List Char) : nextColumn (text ++ more) = some (made, rest ++ more) := by
  rcases nextColumn_eq_some.mp read with ⟨left, comma, read⟩
  have same := skipLayout_append comma (by decide) more
  exact nextColumn_eq_some.mpr ⟨left ++ more, same, column_append read closing more⟩

theorem mem_of_skipLayout (closes : skipLayout text = ')' :: rest) : ')' ∈ text :=
  (skipLayout_suffix text).subset (closes ▸ List.mem_cons_self)

theorem many_nextColumn_append (closes : skipLayout (many nextColumn text).2 = ')' :: rest)
    (more : List Char) :
    many nextColumn (text ++ more) =
      ((many nextColumn text).1, (many nextColumn text).2 ++ more) := by
  induction text using nextColumn_takes.induction with
  | stop text stops =>
    rw [many_of_none stops] at closes ⊢
    have last : nextColumn (text ++ more) = none := by
      have same := skipLayout_append closes (by decide) more
      simp only [nextColumn, same, List.cons_append, exactly]
      rfl
    exact many_of_none last
  | step text made rest read ih =>
    rw [nextColumn_takes.many_of_some read] at closes ⊢
    have closing : ')' ∈ rest := (nextColumn_takes.many_suffix rest).subset (mem_of_skipLayout closes)
    rw [nextColumn_takes.many_of_some (nextColumn_append read closing more), ih closes]

theorem columns_append (closes : skipLayout (columns text).2 = ')' :: rest) (more : List Char) :
    columns (text ++ more) = ((columns text).1, (columns text).2 ++ more) := by
  unfold columns at closes ⊢
  cases read : column text with
  | none =>
    rw [read] at closes
    have none : column (text ++ more) = none := by
      have same := skipLayout_append closes (by decide) more
      rw [column_eq, same]
      rfl
    rw [none]
  | some next =>
    rw [read] at closes
    have closing : ')' ∈ next.2 :=
      (nextColumn_takes.many_suffix next.2).subset (mem_of_skipLayout closes)
    have same := many_nextColumn_append closes more
    rw [column_append read closing more]
    simp only [same]

theorem columns_suffix (text : List Char) : (columns text).2 <:+ text := by
  unfold columns
  cases read : column text with
  | none => exact List.suffix_refl text
  | some next =>
    rcases column_takes read with ⟨taken, -, split⟩
    exact (nextColumn_takes.many_suffix next.2).trans ⟨taken, split.symm⟩

end Columns

section Tables
variable {text rest : List Char} {made : TableDef}

theorem table_eq_some :
    table text = some (made, rest) ↔
      ∃ opened blanks named name bare body,
        keyword "table".toList (skipLayout text) = some opened ∧
        run1 isLayout opened = some (blanks, named) ∧ word named = some (name, bare) ∧
        skipLayout bare = '(' :: body ∧ skipLayout (columns body).2 = ')' :: rest ∧
        made = { name := String.ofList name, columns := (columns body).1 } := by
  simp only [table, Option.bind_eq_bind, Option.bind_eq_some_iff, exactly_eq_some, Prod.exists,
    Option.some.injEq, Prod.mk.injEq]
  constructor
  · rintro ⟨opened, found, blanks, named, spaced, name, bare, given, body, begins, left, closes,
      rfl, rfl⟩
    exact ⟨opened, blanks, named, name, bare, body, found, spaced, given, begins, closes, rfl⟩
  · rintro ⟨opened, blanks, named, name, bare, body, found, spaced, given, begins, closes, rfl⟩
    exact ⟨opened, found, blanks, named, spaced, name, bare, given, body, begins, rest, closes,
      rfl, rfl⟩

theorem solid_of_table {opened : List Char} (found : keyword "table".toList text = some opened) :
    ∃ c more, text = c :: more ∧ c ≠ '-' := by
  rcases keyword_eq_some.mp found with ⟨taken, rfl, lowered⟩
  cases taken with
  | nil => cases lowered
  | cons c taken =>
    refine ⟨c, taken ++ opened, rfl, ?_⟩
    rintro rfl
    cases lowered

theorem table_append (read : table text = some (made, rest)) (more : List Char) :
    table (text ++ more) = some (made, rest ++ more) := by
  rcases table_eq_some.mp read with
    ⟨opened, blanks, named, name, bare, body, found, spaced, given, begins, closes, rfl⟩
  rcases solid_of_table found with ⟨c, left, start, other⟩
  have afterBlanks : named ≠ [] := by
    rintro rfl
    cases given
  have afterName : bare ≠ [] := by
    rintro rfl
    cases begins
  have opened' := skipLayout_append start other more
  have named' := run1_append_of_ne_nil spaced afterBlanks more
  have bare' := run1_append_of_ne_nil given afterName more
  have body' := skipLayout_append begins (by decide) more
  have columns' := columns_append closes more
  refine table_eq_some.mpr ⟨opened ++ more, blanks, named ++ more, name, bare ++ more, body ++ more,
    ?_, named', bare', body', ?_, ?_⟩
  · rw [opened', ← start]
    exact keyword_append found more
  · rw [columns']
    exact skipLayout_append closes (by decide) more
  · rw [columns']

theorem table_takes : table.Takes := by
  intro text made rest read
  rcases table_eq_some.mp read with
    ⟨opened, blanks, named, name, bare, body, found, spaced, given, begins, closes, rfl⟩
  rcases keyword_eq_some.mp found with ⟨taken, split, lowered⟩
  have closing : rest <:+ (columns body).2 :=
    (List.suffix_cons ')' rest).trans (closes ▸ skipLayout_suffix _)
  have opening : body <:+ bare := (List.suffix_cons '(' body).trans (begins ▸ skipLayout_suffix _)
  have unnamed : bare <:+ named := Steady.run1.suffix given
  have spaced' : named <:+ opened := Steady.run1.suffix spaced
  have after : rest <:+ opened :=
    (((closing.trans (columns_suffix body)).trans opening).trans unnamed).trans spaced'
  rcases after with ⟨inner, rfl⟩
  rcases skipLayout_suffix text with ⟨layout, whole⟩
  refine ⟨layout ++ (taken ++ inner), ?_, ?_⟩
  · rintro none
    have empty : taken = [] := by simp_all
    rw [empty] at lowered
    cases lowered
  · rw [← whole, split]
    simp

/-- The tables of a text that is read to its end, with another text on the lines after it. -/
theorem many_table_append (ends : skipLayout (many table text).2 = []) (more : List Char) :
    (many table (text ++ '\n' :: more)).1 = (many table text).1 ++ (many table more).1 ∧
      skipLayout (many table (text ++ '\n' :: more)).2 = skipLayout (many table more).2 := by
  induction text using table_takes.induction with
  | stop text stops =>
    rw [many_of_none stops] at ends ⊢
    have same : skipLayout (text ++ '\n' :: more) = skipLayout more := skipLayout_append_line ends more
    have alike : table (text ++ '\n' :: more) = table more := by
      simp only [table, same]
    cases read : table more with
    | none =>
      rw [many_of_none read, many_of_none (alike.trans read)]
      exact ⟨rfl, same⟩
    | some next =>
      rw [table_takes.many_of_some read, table_takes.many_of_some (alike.trans read)]
      exact ⟨rfl, rfl⟩
  | step text made rest read ih =>
    rw [table_takes.many_of_some read] at ends ⊢
    rw [table_takes.many_of_some (table_append read _)]
    rcases ih ends with ⟨tables, left⟩
    exact ⟨by rw [tables, List.cons_append], left⟩

end Tables

theorem parse_eq_ok {text : String} {schema : Schema} :
    parse text = .ok schema ↔
      skipLayout (many table text.toList).2 = [] ∧
        schema = { tables := (many table text.toList).1 } := by
  unfold parse
  cases left : skipLayout (many table text.toList).2 with
  | nil => simp [left, eq_comm]
  | cons c rest => simp [left]

/-- What two texts declare is declared by the one on the lines after the other, in this order. -/
theorem parse_append {first second : String} {s t : Schema} (read : parse first = .ok s)
    (read' : parse second = .ok t) :
    parse (first ++ "\n" ++ second) = .ok { tables := s.tables ++ t.tables } := by
  rcases parse_eq_ok.mp read with ⟨ends, rfl⟩
  rcases parse_eq_ok.mp read' with ⟨ends', rfl⟩
  have whole : (first ++ "\n" ++ second).toList = first.toList ++ '\n' :: second.toList := by simp
  rcases many_table_append ends second.toList with ⟨tables, left⟩
  rw [parse_eq_ok, whole, left, tables]
  exact ⟨ends', rfl⟩

def usersText : String := "table users (id uuid primary_key) -- accounts"

def usersTable : TableDef where
  name := "users"
  columns := [{ name := "id", type := "uuid", nullable := false, primaryKey := true }]

def ordersText : String := "-- orders\ntable orders (owner uuid references users(id) not null)"

def ordersTable : TableDef where
  name := "orders"
  columns :=
    [{ name := "owner", type := "uuid", nullable := false, references := some "users(id)" }]

theorem users_before_orders :
    parse usersText = .ok { tables := [usersTable] } ∧
      parse ordersText = .ok { tables := [ordersTable] } ∧
      parse (usersText ++ "\n" ++ ordersText) = .ok { tables := [usersTable, ordersTable] } := by
  have users : parse usersText = .ok { tables := [usersTable] } := by decide +kernel
  have orders : parse ordersText = .ok { tables := [ordersTable] } := by decide +kernel
  exact ⟨users, orders, parse_append users orders⟩

end TypedSql.Script
