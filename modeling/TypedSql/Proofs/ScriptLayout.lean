import TypedSql.Proofs.ScriptFiles
import TypedSql.Proofs.Script.Spelled

namespace TypedSql.Script
open Reader

section Constraints
variable {α : Type} {constraints : List Constraint} {column : ColumnDef}

theorem foldl_apply_eq {part : ColumnDef → α} (sets : Constraint → Option α) {value : α}
    (applied : ∀ column x, part (Constraint.apply column x) = (sets x).getD (part column))
    (agree : ∀ x ∈ constraints, sets x = none ∨ sets x = some value)
    (unset : (∀ x ∈ constraints, sets x = none) → part column = value) :
    part (constraints.foldl Constraint.apply column) = value := by
  induction constraints generalizing column with
  | nil => exact unset (by simp)
  | cons x constraints ih =>
    rcases List.forall_mem_cons.mp agree with ⟨first, others⟩
    apply ih others
    intro none
    rw [applied]
    rcases first with passed | given
    · rw [passed, Option.getD_none]
      exact unset (List.forall_mem_cons.mpr ⟨passed, none⟩)
    · rw [given, Option.getD_some]

theorem foldl_apply_flag {part : ColumnDef → Bool} {value flag : Bool} (setters : List Constraint)
    (applied : ∀ column x,
      part (Constraint.apply column x) = if x ∈ setters then flag else part column)
    (told : value = flag ↔ ∃ x ∈ setters, x ∈ constraints) (fresh : part column = !flag) :
    part (constraints.foldl Constraint.apply column) = value := by
  refine foldl_apply_eq (fun x => if x ∈ setters then some flag else none) (fun column x => ?_)
    (fun x member => ?_) fun unset => ?_
  · rw [applied]
    split <;> rfl
  · split
    · rename_i setter
      exact .inr (congrArg some (told.mpr ⟨x, setter, member⟩).symm)
    · exact .inl rfl
  · have other : value ≠ flag := by
      intro same
      obtain ⟨x, setter, member⟩ := told.mp same
      simpa [setter] using unset x member
    rw [fresh, Bool.eq_not_of_ne other]

theorem foldl_apply_text {part : ColumnDef → Option String} {form : String → Constraint}
    {value : Option String} (sets : Constraint → Option String)
    (formed : ∀ x v, sets x = some v ↔ x = form v)
    (applied : ∀ column x, part (Constraint.apply column x) = (sets x).or (part column))
    (told : ∀ v, value = some v ↔ form v ∈ constraints) (fresh : part column = none) :
    part (constraints.foldl Constraint.apply column) = value := by
  refine foldl_apply_eq (fun x => (sets x).map some) (fun column x => ?_) (fun x member => ?_) ?_
  · rw [applied]
    cases sets x <;> rfl
  · cases held : sets x with
    | none => exact .inl rfl
    | some v =>
      have listed := (formed x v).mp held ▸ member
      exact .inr (congrArg some ((told v).mpr listed).symm)
  · intro unset
    cases held : value with
    | none => exact fresh
    | some v => simpa [(formed (form v) v).mpr rfl] using unset _ ((told v).mp held)

def plain (column : ColumnDef) : ColumnDef := { name := column.name, type := column.type }

theorem Describes.foldl_eq (described : Describes constraints column) :
    constraints.foldl Constraint.apply (plain column) = column := by
  have name : (constraints.foldl Constraint.apply (plain column)).name = column.name :=
    foldl_apply_eq (fun _ => none) (fun _ x => by cases x <;> rfl) (by simp) fun _ => rfl
  have type : (constraints.foldl Constraint.apply (plain column)).type = column.type :=
    foldl_apply_eq (fun _ => none) (fun _ x => by cases x <;> rfl) (by simp) fun _ => rfl
  have primaryKey : (constraints.foldl Constraint.apply (plain column)).primaryKey =
      column.primaryKey :=
    foldl_apply_flag [.primaryKey] (fun _ x => by cases x <;> rfl)
      (by simpa using described.primaryKey) rfl
  have nullable : (constraints.foldl Constraint.apply (plain column)).nullable = column.nullable :=
    foldl_apply_flag [.primaryKey, .notNull] (fun _ x => by cases x <;> rfl)
      (by simpa using described.nullable) rfl
  have unique : (constraints.foldl Constraint.apply (plain column)).unique = column.unique :=
    foldl_apply_flag [.unique] (fun _ x => by cases x <;> rfl) (by simpa using described.unique) rfl
  have references : (constraints.foldl Constraint.apply (plain column)).references =
      column.references :=
    foldl_apply_text (fun | .references target => some target | _ => none)
      (fun x v => by cases x <;> simp) (fun _ x => by cases x <;> rfl) described.references rfl
  have default : (constraints.foldl Constraint.apply (plain column)).defaultValue =
      column.defaultValue :=
    foldl_apply_text (fun | .default value => some value | _ => none)
      (fun x v => by cases x <;> simp) (fun _ x => by cases x <;> rfl) described.default rfl
  generalize constraints.foldl Constraint.apply (plain column) = made at *
  cases made
  cases column
  simp_all

end Constraints

section Columns
variable {constraints : List (Constraint × List Char)} {column : ColumnDef}
  {columns : List ColumnDef} {layout text rest : List Char} {c : Char}

theorem constraint_none (other : c ∈ [' ', '\t', '\r', '\n', '-', ',', ')']) :
    constraint (c :: text) = none := by
  have each : ∀ c ∈ [' ', '\t', '\r', '\n', '-', ',', ')'], c.toLower ≠ 'p' ∧ c.toLower ≠ 'n' ∧
      c.toLower ≠ 'u' ∧ c.toLower ≠ 'r' ∧ c.toLower ≠ 'd' :=
    List.forall_iff_forall_mem.mp (by decide)
  rw [constraint_eq rfl]
  simp only [each c other, if_false]

theorem head_of_constraint {next : Constraint × List Char} (read : constraint text = some next)
    (member : c ∈ text.head?) : isGap c = false := by
  rcases List.head?_eq_some_iff.mp member with ⟨more, rfl⟩
  by_contra gap
  have blank : c = ' ' ∨ c = '\t' := by
    simpa only [isGap, Bool.not_eq_false, Bool.or_eq_true, beq_iff_eq] using gap
  have none : constraint (c :: more) = none := by
    rcases blank with rfl | rfl <;> exact constraint_none (by decide)
  rw [none] at read
  cases read

theorem Skipped.dropWhile (skipped : Skipped layout) (mark : c ∈ [',', ')']) (text : List Char) :
    ∃ d more, (layout ++ c :: text).dropWhile isGap = d :: more ∧
      d ∈ [' ', '\t', '\r', '\n', '-', ',', ')'] := by
  induction skipped with
  | nil =>
    have each : ∀ c ∈ [',', ')'], isGap c = false ∧ c ∈ [' ', '\t', '\r', '\n', '-', ',', ')'] :=
      List.forall_iff_forall_mem.mp (by decide)
    exact ⟨c, text, by simp [each c mark], (each c mark).2⟩
  | @blank d rest blank _ ih =>
    by_cases gap : isGap d = true
    · simpa [gap] using ih
    · have each : [' ', '\t', '\r', '\n'] ⊆ [' ', '\t', '\r', '\n', '-', ',', ')'] := by decide
      exact ⟨d, rest ++ c :: text, by simp [gap], each blank⟩
  | @comment line newline rest _ _ _ _ =>
    have hyphen : isGap '-' = false := rfl
    exact ⟨'-', '-' :: (line ++ (newline ++ (rest ++ c :: text))), by simp [hyphen], by decide⟩

theorem Skipped.nextConstraint (skipped : Skipped layout) (mark : c ∈ [',', ')']) :
    Script.nextConstraint (layout ++ c :: text) = none := by
  rcases skipped.dropWhile mark text with ⟨d, more, left, other⟩
  rw [nextConstraint_eq]
  cases read : gap (layout ++ c :: text) with
  | none => simp [Reader.andThen, read]
  | some next =>
    have behind : next.2 = d :: more := (run1_eq_some.mp read).2.1.symm.trans left
    simp [Reader.andThen, read, behind, constraint_none other]

theorem many_nextConstraint
    (spelled : ∀ x ∈ constraints, ∃ gap text, IsGap gap ∧ Spells x.1 text ∧ x.2 = gap ++ text)
    (stops : Stops rest) (last : nextConstraint rest = none) :
    many nextConstraint (constraints.flatMap Prod.snd ++ rest) =
        (constraints.map Prod.fst, rest) ∧
      Stops (constraints.flatMap Prod.snd ++ rest) := by
  induction constraints with
  | nil => exact ⟨many_of_none last, stops⟩
  | cons x constraints ih =>
    rcases List.forall_mem_cons.mp spelled with ⟨⟨gap, text, apart, spells, whole⟩, others⟩
    rcases ih others with ⟨read, stops'⟩
    have first := spells.read stops'
    have begun := apart.gap fun c member => head_of_constraint first member
    have next : nextConstraint (gap ++ (text ++ (constraints.flatMap Prod.snd ++ rest))) =
        some (x.1, constraints.flatMap Prod.snd ++ rest) := by
      simp only [nextConstraint, begun, Option.bind_eq_bind, Option.bind_some, first]
    simp only [List.flatMap_cons, List.map_cons, whole, List.append_assoc]
    exact ⟨by rw [nextConstraint_takes.many_of_some next, read], apart.stops _⟩

theorem WritesColumn.bareColumn (written : WritesColumn column text) (stops : Stops rest)
    (last : nextConstraint rest = none) :
    Script.bareColumn (text ++ rest) = some (column, rest) := by
  rcases written with ⟨named, apart, typed, lower, spelled, described⟩
  rename_i gap constraints
  rcases many_nextConstraint spelled stops last with ⟨read, stops'⟩
  have name : Script.word (column.name.toList ++
      (gap ++ (column.type.toList ++ (constraints.flatMap Prod.snd ++ rest)))) = _ :=
    named.word fun c member => ((apart.stops _).head member).1
  have type := typed.read stops'
  have begun : Script.gap (gap ++ (column.type.toList ++ (constraints.flatMap Prod.snd ++ rest))) = _ :=
    apart.gap fun c member => typed.head member
  simp only [List.append_assoc, Script.bareColumn, Reader.andThen, columnBody, name, Option.bind_some,
    begun, type, Option.map_some, read, lower, String.ofList_toList]
  rw [← plain, described.foldl_eq]

def Closes (text : List Char) : Prop :=
  ∃ layout c more, text = layout ++ c :: more ∧ IsLayout layout ∧ c ∈ [',', ')']

theorem WritesColumn.read (written : WritesColumn column text) (toColumn : IsLayout layout)
    (closes : Closes rest) : Script.column (layout ++ (text ++ rest)) = some (column, rest) := by
  have first : ∀ c ∈ (text ++ rest).head?, isWordRest c = true := by
    rcases written with ⟨named, -, -, -, -, -⟩
    intro c member
    simp only [List.append_assoc] at member
    exact named.head member
  rcases closes with ⟨after, c, more, rfl, laid, mark⟩
  rw [column_eq, toColumn.skipped.skipLayout, skipLayout_of_isWordRest first]
  exact written.bareColumn (laid.stops mark more) (laid.skipped.nextConstraint mark)

theorem WritesFurther.closes (further : WritesFurther columns text) (laid : IsLayout layout)
    (rest : List Char) :
    Closes (text ++ (layout ++ ')' :: rest)) := by
  cases further with
  | nil => exact ⟨layout, ')', rest, rfl, laid, by decide⟩
  | cons toComma toColumn written further => exact ⟨_, ',', _, by simp; rfl, toComma, by decide⟩

theorem WritesFurther.read (further : WritesFurther columns text) (laid : IsLayout layout) :
    many nextColumn (text ++ (layout ++ ')' :: rest)) = (columns, layout ++ ')' :: rest) := by
  induction further with
  | nil =>
    apply many_of_none
    have closing : skipLayout (layout ++ ')' :: rest) = ')' :: rest :=
      laid.skipped.skipLayout.trans (skipLayout_solid (by decide) (by decide))
    simp [nextColumn, closing, exactly]
  | @cons column columns before after text others toComma toColumn written further ih =>
    have comma : skipLayout (before ++ ',' :: (after ++ (text ++ (others ++ (layout ++ ')' :: rest))))) =
        ',' :: (after ++ (text ++ (others ++ (layout ++ ')' :: rest)))) :=
      toComma.skipped.skipLayout.trans (skipLayout_solid (by decide) (by decide))
    have next := nextColumn_eq_some.mpr ⟨_, comma, written.read toColumn (further.closes laid rest)⟩
    simp only [List.append_assoc, List.cons_append]
    rw [nextColumn_takes.many_of_some next, ih]

theorem WritesColumns.read (written : WritesColumns columns text) (laid : IsLayout layout) :
    Script.columns (text ++ (layout ++ ')' :: rest)) = (columns, layout ++ ')' :: rest) := by
  cases written with
  | nil =>
    have closing : skipLayout (layout ++ ')' :: rest) = ')' :: rest :=
      laid.skipped.skipLayout.trans (skipLayout_solid (by decide) (by decide))
    have none : Script.column (layout ++ ')' :: rest) = none := by
      rw [column_eq, closing]
      rfl
    simp [Script.columns, none]
  | cons toColumn written further =>
    have first := written.read toColumn (further.closes laid rest)
    simp only [List.append_assoc, Script.columns, first, further.read laid]

end Columns

section Tables
variable {table : TableDef} {tables : List TableDef} {layout text rest : List Char}

theorem WritesTable.read (written : WritesTable table text) (toTable : IsLayout layout) :
    Script.table (layout ++ (text ++ rest)) = some (table, rest) := by
  rcases written with ⟨begun, apart, named, toOpening, written, toClosing⟩
  rename_i word blanks before columns after
  have read : Script.columns (columns ++ (after ++ ')' :: rest)) = _ := written.read toClosing
  have closing : skipLayout (after ++ ')' :: rest) = ')' :: rest :=
    toClosing.skipped.skipLayout.trans (skipLayout_solid (by decide) (by decide))
  simp only [List.append_assoc, List.cons_append, List.nil_append]
  generalize columns ++ (after ++ ')' :: rest) = body at read ⊢
  have start : ∀ c ∈ (word ++ (blanks ++ (table.name.toList ++ (before ++ '(' :: body)))).head?,
      isWordRest c = true := by
    cases begun with
    | cons letter _ =>
      intro c member
      cases member
      rcases letter with rfl | rfl <;> decide
  have opened : keyword "table".toList
      (skipLayout (layout ++ (word ++ (blanks ++ (table.name.toList ++ (before ++ '(' :: body)))))) =
        some (blanks ++ (table.name.toList ++ (before ++ '(' :: body))) := by
    rw [toTable.skipped.skipLayout, skipLayout_of_isWordRest start]
    exact keyword_self begun (by decide)
  have spaced : run1 isLayout (blanks ++ (table.name.toList ++ (before ++ '(' :: body))) =
      some (blanks, table.name.toList ++ (before ++ '(' :: body)) := by
    have each : [' ', '\t', '\r', '\n'].all isLayout = true := by decide
    exact run1_append apart.1 (fun c member => List.all_eq_true.mp each c (apart.2 c member))
      fun c member => isLayout_of_isWordRest (named.head member)
  have ends : ∀ c ∈ (before ++ '(' :: body).head?, isWordRest c = false := by
    intro c member
    cases toOpening with
    | nil =>
      cases member
      decide
    | blank blank _ =>
      cases member
      have each : ∀ c ∈ [' ', '\t', '\r', '\n'], isWordRest c = false :=
        List.forall_iff_forall_mem.mp (by decide)
      exact each _ blank
  have opening : skipLayout (before ++ '(' :: body) = '(' :: body :=
    toOpening.skipped.skipLayout.trans (skipLayout_solid (by decide) (by decide))
  refine table_eq_some.mpr ⟨_, _, _, _, _, _, opened, spaced, named.word ends, opening, ?_, ?_⟩
  · rw [read, closing]
  · rw [read, String.ofList_toList]

/-- All tables are read, up to the layout at the end. -/
theorem Writes.read (written : Writes tables text) :
    (many Script.table text).1 = tables ∧ skipLayout (many Script.table text).2 = [] := by
  induction written with
  | @nil last toEnd =>
    have ends : skipLayout last = [] := by
      have whole : skipLayout (last ++ []) = skipLayout [] := toEnd.skipped.skipLayout
      rwa [List.append_nil] at whole
    have none : Script.table last = none := by
      simp [Script.table, ends, keyword]
    rw [many_of_none none]
    exact ⟨rfl, ends⟩
  | @cons table tables before text rest toTable written further ih =>
    have next : Script.table (before ++ (text ++ rest)) = some (table, rest) :=
      written.read toTable
    rw [List.append_assoc, table_takes.many_of_some next]
    exact ⟨congrArg _ ih.1, ih.2⟩

end Tables

/-- A schema is read back from each of its texts. -/
theorem parse_written {text : String} (written : Writes tables text.toList) :
    parse text = .ok { tables } := by
  rcases written.read with ⟨read, ends⟩
  exact parse_eq_ok.mpr ⟨ends, by rw [read]⟩

def teamText : String :=
  "\n-- people\nTable \tteam -- all\r\n( id  uuid  Primary  KEY\n,lead varchar(80)[] UNIQUE " ++
    "default 0 NOT_null references member(id) )  "

def idColumn : ColumnDef := { name := "id", type := "uuid", nullable := false, primaryKey := true }

def leadColumn : ColumnDef where
  name := "lead"
  type := "varchar(80)[]"
  nullable := false
  unique := true
  references := some "member(id)"
  defaultValue := some "0"

def teamTable : TableDef := { name := "team", columns := [idColumn, leadColumn] }

theorem teamText_read : Writes [teamTable] teamText.toList ∧
    parse teamText = .ok { tables := [teamTable] } := by
  have gap (n : ℕ) : IsGap (List.replicate (n + 1) ' ') := by
    constructor
    · simp
    · intro c member
      simp [List.eq_of_mem_replicate member]
  have space : IsLayout [' '] := .blank (by decide) .nil
  have id : WritesColumn idColumn "id  uuid  Primary  KEY".toList := by
    have typed : IsType "uuid".toList :=
      @IsType.mk "uuid".toList [] [] (by decide) (.inl rfl) (.inl rfl)
    have key : Spells .primaryKey "Primary  KEY".toList :=
      @Spells.primaryKeyApart "Primary".toList _ "KEY".toList (by decide) (gap 1) (by decide)
    refine @WritesColumn.mk _ _ [(.primaryKey, "  Primary  KEY".toList)]
      (by decide) (gap 1) typed (by decide) ?_ ?_
    · simpa using ⟨_, gap 1, _, key, rfl⟩
    · constructor <;> simp [idColumn]
  have lead : WritesColumn leadColumn
      "lead varchar(80)[] UNIQUE default 0 NOT_null references member(id)".toList := by
    have typed : IsType "varchar(80)[]".toList :=
      @IsType.mk "varchar".toList "(80)".toList "[]".toList (by decide)
        (.inr ⟨"80".toList, by decide, by decide, rfl⟩) (.inr rfl)
    have value : Spells (.default "0") "default 0".toList :=
      @Spells.default "default".toList _ "0" (by decide) (gap 0) (by decide)
    have target : IsTarget "member(id)".toList :=
      @IsTarget.mk "member".toList "(id)".toList (by decide)
        (.inr ⟨"id".toList, by decide, rfl⟩)
    have member : Spells (.references "member(id)") "references member(id)".toList :=
      @Spells.references "references".toList _ "member(id)" (by decide) (gap 0) target
    refine @WritesColumn.mk _ _ [(.unique, " UNIQUE".toList), (.default "0", " default 0".toList),
        (.notNull, " NOT_null".toList), (.references "member(id)", " references member(id)".toList)]
      (by decide) (gap 0) typed (by decide) ?_ ?_
    · intro x given
      simp only [List.mem_cons, List.not_mem_nil, or_false] at given
      rcases given with rfl | rfl | rfl | rfl
      · exact ⟨_, "UNIQUE".toList, gap 0, .unique (by decide), rfl⟩
      · exact ⟨_, _, gap 0, value, rfl⟩
      · exact ⟨_, "NOT_null".toList, gap 0, .notNull (by decide), rfl⟩
      · exact ⟨_, _, gap 0, member, rfl⟩
    · constructor <;> simp [leadColumn, eq_comm]
  have comment : IsLayout " -- all\r\n".toList := .blank (by decide)
    (@Skipped.comment " all".toList "\r\n".toList _ (List.forall_iff_forall_mem.mp (by decide))
      (.inr rfl) .nil)
  have line : IsLayout ['\n'] := .blank (by decide) .nil
  have further := WritesFurther.cons line .nil lead .nil
  have table := @WritesTable.mk teamTable "Table".toList " \t".toList _ _ _ (by decide)
    (by decide) (by decide) comment (.cons space id further) space
  have above : IsLayout "\n-- people\n".toList := .blank (by decide)
    (@Skipped.comment " people".toList ['\n'] _ (List.forall_iff_forall_mem.mp (by decide))
      (.inl rfl) .nil)
  have written : Writes [teamTable] teamText.toList := by
    have below : IsLayout [' ', ' '] := .blank (by decide) space.skipped
    have whole := Writes.cons above table (.nil below)
    convert whole using 1
    decide +kernel
  exact ⟨written, parse_written written⟩

end TypedSql.Script
