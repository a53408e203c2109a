import Mathlib.Data.List.Nodup
import Mathlib.Data.List.Perm.Basic
import Mathlib.Order.Bounds.Basic
import TypedSql.Document.Reader
import TypedSql.Proofs.Clauses
import TypedSql.Proofs.NameMap
import TypedSql.Proofs.Sql.Insertion
import TypedSql.Tree.Build

namespace TypedSql

/-- What the text of an insertion says, in the words of its dialect. -/
def Rendered.insertion (r : Rendered) (d : Dialect) : Option Insertion :=
  (d.lex r.sql.toList).bind fun tokens => insertion? (lexemes tokens)

theorem mem_commaed {x : Lexeme} {parts : List (List Lexeme)} (member : x ∈ commaed parts) :
    x = .sign ',' ∨ x = .sign ' ' ∨ ∃ part ∈ parts, x ∈ part := by
  unfold commaed at member
  induction parts with
  | nil => simp at member
  | cons part rest ih =>
    cases rest with
    | nil => exact .inr (.inr ⟨part, List.mem_cons_self, by simpa using member⟩)
    | cons next rest =>
      rw [List.intercalate_cons_cons, List.mem_append, List.mem_append] at member
      rcases member with (inside | separator) | further
      · exact .inr (.inr ⟨part, List.mem_cons_self, inside⟩)
      · rcases List.mem_pair.mp separator with rfl | rfl
        · exact .inl rfl
        · exact .inr (.inl rfl)
      · rcases ih further with same | same | ⟨other, inside, within⟩
        · exact .inl same
        · exact .inr (.inl same)
        · exact .inr (.inr ⟨other, List.mem_cons_of_mem _ inside, within⟩)

def Sql.SetOff (spell : Hole → String) (s : Sql) : Prop :=
  s.lexemes spell = [] ∨ ∃ rest, s.lexemes spell = .sign ' ' :: rest

section Texts
variable {c : Context} {d : Dialect} {spell : Hole → String} {s t : Sql}

namespace Sql.SetOff

theorem nil : Sql.SetOff spell [] := .inl rfl

theorem text {text : String} (begins : text.toList.head? = some ' ') (s : Sql) :
    (sql text ++ s).SetOff spell := by
  obtain ⟨rest, spelled⟩ := List.head?_eq_some_iff.mp begins
  refine .inr ⟨rest.foldr gather (s.lexemes spell), ?_⟩
  rw [sql, List.singleton_append, lexemes_text_cons, spelled]
  exact gather_sign (by decide) _

theorem apart (off : s.SetOff spell) : Apart (s.lexemes spell) := by
  rcases off with none | ⟨rest, some⟩
  · rw [none]
    trivial
  · rw [some]
    trivial

theorem endsTuples (off : s.SetOff spell) : EndsTuples (s.lexemes spell) := by
  rcases off with none | ⟨rest, some⟩
  · rw [none]
    trivial
  · rw [some]
    trivial

theorem append (first : s.SetOff spell) (second : t.SetOff spell) : (s ++ t).SetOff spell := by
  unfold SetOff
  rw [lexemes_append second.apart]
  rcases first with none | ⟨rest, some⟩
  · rw [none, List.nil_append]
    exact second
  · exact .inr ⟨rest ++ t.lexemes spell, by rw [some]; rfl⟩

end Sql.SetOff

theorem Upserts.setOff {conflict : Option OnConflict} (made : Upserts c conflict s) :
    s.SetOff spell := by
  cases made with
  | none => exact .nil
  | ignore => exact .nil
  | duplicate => exact .text (by decide) _
  | skip =>
    rw [List.append_assoc]
    exact .text (by decide) _
  | update =>
    rw [List.append_assoc, List.append_assoc]
    exact .text (by decide) _

theorem renderReturning_setOff {returning : List Field}
    (made : renderReturning d returning = .ok s) : s.SetOff spell := by
  rcases renderReturning_ok made with ⟨-, rfl⟩ | ⟨-, rfl⟩ | ⟨-, -, fields, -, rfl⟩
  · exact .nil
  · exact .nil
  · exact .text (by decide) _

theorem renderOutput_setOff {source : OutputSource} {returning : List Field}
    (made : renderOutput d source returning = .ok s) : s.SetOff spell := by
  rcases renderOutput_ok made with ⟨-, rfl⟩ | ⟨-, -, rfl⟩
  · exact .nil
  · exact .text (by decide) _

theorem renderOutput_values {returning : List Field}
    (made : renderOutput d .inserted returning = .ok s) :
    .word "VALUES".toList ∉ s.lexemes spell := by
  rcases renderOutput_ok made with ⟨-, rfl⟩ | ⟨-, -, rfl⟩
  · exact List.not_mem_nil
  · rw [Sql.lexemes_closed (by decide), Sql.lexemes_commaList]
    intro member
    rcases List.mem_append.mp member with keyword | listed
    · revert keyword
      decide
    · rcases mem_commaed listed with same | same | ⟨part, column, inside⟩
      · cases same
      · cases same
      · simp only [List.map_map, List.mem_map, Function.comp] at column
        obtain ⟨f, -, rfl⟩ := column
        have written : Sql.lexemes spell [.text (OutputSource.inserted.keyword ++ "."),
            .name .field f.name] = [.word "INSERTED".toList, .sign '.', .name f.name] := by
          have alone : Apart [.name f.name] := trivial
          rw [Sql.lexemes_text_cons, Sql.lexemes_name_cons, Sql.lexemes_nil, foldr_gather alone]
          rfl
        rw [written] at inside
        revert inside
        simp

theorem Context.lexemes_placeholder (inert : SpelledInert spell) (full : ∀ use, spell use ≠ "")
    (p : Param) :
    (c.placeholder p).lexemes spell = [.word (spell ⟨c.depth, p⟩).toList] := by
  rw [Context.placeholder, Sql.lexemes_hole_cons, Sql.lexemes_nil]
  apply foldr_gather_word
  · exact inert _
  · simpa using full _

theorem lexemes_tuple (inert : SpelledInert spell) (full : ∀ use, spell use ≠ "") (row : Row) :
    (tuple c row).lexemes spell =
      bracketed (row.values.map fun p => .word (spell ⟨c.depth, p⟩).toList) := by
  have opening : "(".toList.foldr gather [] = [.sign '('] := by decide
  have closing : ")".toList.foldr gather [] = [.sign ')'] := by decide
  rw [tuple, Sql.parenthesised, Sql.lexemes_opened (by decide), Sql.lexemes_closed (by decide),
    Sql.lexemes_commaList, opening, closing]
  simp only [bracketed, List.map_map, Function.comp_def, Context.lexemes_placeholder inert full]
  rfl

theorem lexemes_insert {q : Query} {first : Row} {output upsert returning : Sql}
    (operation : q.operation = .insert) (clauses : q.checkClauses = .ok ())
    (outputs : renderOutput c.dialect .inserted q.returning = .ok output)
    (upserts : Upserts c q.onConflict upsert)
    (returns : renderReturning c.dialect q.returning = .ok returning) :
    (q.insertText c first output upsert returning).lexemes spell =
      (insertKeyword c.dialect q.onConflict).toList.foldr gather [] ++
        [Lexeme.name q.table.name, .sign ' '] ++ bracketed (first.names.map .name) ++
        (output.lexemes spell ++ [Lexeme.sign ' ']) ++
        Lexeme.word "VALUES".toList :: .sign ' ' ::
          (commaed ((q.rows.map (tuple c)).map (Sql.lexemes spell)) ++
            (upsert ++ returning).lexemes spell) := by
  have unaliased : q.table.render = [.name .table q.table.name] := by
    have absent := q.isPresent_eq_false clauses .tableAlias (by rw [operation]; decide)
    have none : q.table.alias? = none := by simpa [Clause.isPresent] using absent
    rw [Table.render, none]
  have keyword : closed (insertKeyword c.dialect q.onConflict).toList = true := by
    unfold insertKeyword
    split <;> decide
  have opening : " (".toList.foldr gather [] = [.sign ' ', .sign '('] := by decide
  have closing : ")".toList.foldr gather [] = [.sign ')'] := by decide
  have values : " VALUES ".toList.foldr gather [] =
      [.sign ' ', .word "VALUES".toList, .sign ' '] := by decide
  rw [Query.insertText, List.append_assoc _ upsert returning,
    Sql.lexemes_append (upserts.setOff.append (renderReturning_setOff returns)).apart,
    Sql.lexemes_linked (by decide) (by decide),
    Sql.lexemes_append (renderOutput_setOff outputs).apart, Sql.lexemes_opened (by decide),
    Sql.lexemes_linked (by decide) (by decide), Sql.lexemes_closed keyword, unaliased,
    Sql.lexemes_commaList, Sql.lexemes_commaList, opening, closing, values]
  simp [bracketed, Function.comp_def]

end Texts

theorem spelledNamed_full (d : Dialect) (use : Hole) : d.namedPlaceholder use.name ≠ "" := by
  intro empty
  have spelled := toList_namedPlaceholder d use
  rw [empty] at spelled
  cases spelled

/-- What is read from an insertion: the columns of its rows, and for each row the placeholders of
    its values, in the order of their columns. -/
theorem Query.insertion_read {q : Query} {options : RenderOptions} {r : Rendered}
    (operation : q.operation = .insert) (named : options.placeholders = .named)
    (rendered : q.toSql options = .ok r) :
    ∃ first : Row, checkRows q.rows = .ok first ∧
      r.insertion options.dialect = some ⟨first.names, q.rows.map fun row =>
        row.values.map fun p => options.dialect.sigil ++ p.name⟩ := by
  have sent : (Statement.query q).toSql options = .ok r := rendered
  obtain ⟨s, ⟨made⟩, read, -⟩ := Statement.sent_tokens sent
  have spelled : (Statement.query q).spelling options =
      fun use => options.dialect.namedPlaceholder use.name := by
    funext use
    simp only [Statement.spelling, named, spellHole_named]
  have inert := (Statement.query q).spelling_inert options
  rw [spelled] at read inert
  rw [Rendered.insertion, read, Option.bind_some]
  cases made with
  | select other | count other | update other | delete other =>
    rw [operation] at other
    cases other
  | @insert _ _ first output upsert returning _ clauses shaped _ outputs upserts returns =>
    obtain ⟨member, full, same⟩ := checkRows_ok shaped
    have columns : first.names ≠ [] := by
      simpa [NameMap.names, NameMap.isEmpty] using full
    refine ⟨first, shaped, ?_⟩
    show insertion? (Sql.lexemes _ _) = _
    rw [lexemes_insert operation clauses outputs upserts returns, List.map_map]
    have tuples : q.rows.map (Sql.lexemes (fun use => options.dialect.namedPlaceholder use.name) ∘
        tuple (.top options)) = (q.rows.map fun row => row.values.map fun p =>
          Lexeme.word (options.dialect.sigil ++ p.name).toList).map bracketed := by
      rw [List.map_map]
      apply List.map_congr_left
      intro row _
      exact lexemes_tuple inert (spelledNamed_full _) row
    rw [tuples]
    apply insertion?_eq_some
    · unfold insertKeyword
      split <;> simp only [List.mem_append, not_or] <;> exact ⟨by decide, by simp⟩
    · simpa using columns
    · rw [List.forall₂_map_left_iff, List.forall₂_same]
      exact fun _ _ => rfl
    · intro inside
      rcases List.mem_append.mp inside with inside | inside
      · exact renderOutput_values outputs inside
      · simp at inside
    · simpa using List.ne_nil_of_mem member
    · intro xs inside
      obtain ⟨row, among, rfl⟩ := List.mem_map.mp inside
      have filled : row.names ≠ [] := by rwa [same row among]
      simpa [NameMap.names, NameMap.values] using filled
    · exact (upserts.setOff.append (renderReturning_setOff returns)).endsTuples
    · rw [List.forall₂_map_left_iff, List.forall₂_map_right_iff, List.forall₂_same]
      intro row _
      rw [List.forall₂_map_left_iff, List.forall₂_map_right_iff, List.forall₂_same]
      intro p _
      rw [Lexeme.word?, String.ofList_toList]

def Row.build (calls : List (Field × Param)) : Except BuildError Row :=
  calls.foldlM (fun row call => row.value call.1 call.2) .empty

theorem Row.value_ok_iff {row made : Row} {f : Field} {p : Param} :
    row.value f p = .ok made ↔
      f.isPlain = true ∧ f.name ∉ row.names ∧ row.insert f.name p = made := by
  unfold Row.value
  by_cases plain : f.isPlain = true
  · by_cases given : row.contains f.name = true
    · simp [plain, given, NameMap.contains_iff.mp given]
    · have absent : f.name ∉ row.names := mt NameMap.contains_iff.mpr given
      simp [plain, given, absent]
  · simp [plain]

theorem Row.foldlM_value_ok_iff {calls : List (Field × Param)} {row made : Row} :
    calls.foldlM (fun row call => row.value call.1 call.2) row = .ok made ↔
      (∀ call ∈ calls, call.1.isPlain = true ∧ call.1.name ∉ row.names) ∧
        (calls.map fun call => call.1.name).Nodup ∧
        (calls.map fun call => (call.1.name, call.2)).foldl (fun m e => m.insert e.1 e.2) row =
          made := by
  induction calls generalizing row with
  | nil => simp [pure, Except.pure]
  | cons call rest ih =>
    rw [List.foldlM_cons, Except.bind_eq_ok]
    simp only [Row.value_ok_iff, ih, List.forall_mem_cons, List.map_cons, List.nodup_cons,
      List.foldl_cons]
    constructor
    · rintro ⟨_, ⟨plain, absent, rfl⟩, each, distinct, built⟩
      simp only [NameMap.mem_names_insert, not_or] at each
      refine ⟨⟨⟨plain, absent⟩, fun c member => ?_⟩, ⟨?_, distinct⟩, built⟩
      · exact ⟨(each c member).1, (each c member).2.2⟩
      · intro again
        obtain ⟨c, member, same⟩ := List.mem_map.mp again
        exact (each c member).2.1 same
    · rintro ⟨⟨⟨plain, absent⟩, each⟩, ⟨fresh, distinct⟩, built⟩
      refine ⟨_, ⟨plain, absent, rfl⟩, fun c member => ?_, distinct, built⟩
      rw [NameMap.mem_names_insert, not_or]
      refine ⟨(each c member).1, fun same => ?_, (each c member).2⟩
      exact fresh (List.mem_map.mpr ⟨c, member, same⟩)

theorem Row.build_ok_iff {calls : List (Field × Param)} {row : Row} :
    Row.build calls = .ok row ↔
      (∀ call ∈ calls, call.1.isPlain = true) ∧ (calls.map fun call => call.1.name).Nodup ∧
        NameMap.ofList (calls.map fun call => (call.1.name, call.2)) = row := by
  rw [Row.build, Row.foldlM_value_ok_iff]
  simp [NameMap.empty, NameMap.names, NameMap.ofList]

theorem Row.build_get? {calls : List (Field × Param)} {row : Row} (built : Row.build calls = .ok row)
    (name : String) (p : Param) :
    row.get? name = some p ↔ ∃ call ∈ calls, call.1.name = name ∧ call.2 = p := by
  obtain ⟨-, distinct, rfl⟩ := Row.build_ok_iff.mp built
  have distinct : ((calls.map fun call => (call.1.name, call.2)).map Prod.fst).Nodup := by
    simpa [Function.comp_def] using distinct
  rw [NameMap.get?_eq_some_iff, NameMap.mem_ofList_iff distinct]
  simp

theorem Row.build_perm {calls others : List (Field × Param)} {row : Row}
    (built : Row.build calls = .ok row) (permuted : calls.Perm others) :
    Row.build others = .ok row := by
  obtain ⟨plain, distinct, rfl⟩ := Row.build_ok_iff.mp built
  have named : ((calls.map fun call => (call.1.name, call.2)).map Prod.fst).Nodup := by
    simpa [Function.comp_def] using distinct
  apply Row.build_ok_iff.mpr
  refine ⟨fun call member => plain call (permuted.mem_iff.mpr member), ?_, ?_⟩
  · exact (permuted.map _).nodup_iff.mp distinct
  · exact NameMap.ofList_perm named (permuted.map _)

open Json (Reading)

section Documents
variable {members others : List (Reading × Reading)} {held : Bool} {row : Row}

theorem Decoder.entry_ok_iff {α : Type} {decode : Decoder α} {member : Reading × Reading}
    {e : String × α} :
    Decoder.entry decode held member = .ok e ↔
      member.1.text? = some e.1 ∧ decode ⟨member.2, held⟩ = .ok e.2 := by
  unfold Decoder.entry
  split
  · rename_i none
    simp [none]
  · rename_i name read
    rw [read, Except.map_eq_ok, Option.some.injEq]
    constructor
    · rintro ⟨a, decoded, rfl⟩
      exact ⟨rfl, decoded⟩
    · rintro ⟨rfl, decoded⟩
      exact ⟨e.2, decoded, rfl⟩

theorem Row.decode_ok_iff : Row.decode ⟨.object members, held⟩ = .ok row ↔
    ∃ entries, List.Forall₂ (fun member e => Decoder.entry Param.decode held member = .ok e)
      members entries ∧ NameMap.ofList entries = row := by
  show Except.map _ (members.mapM (Decoder.entry Param.decode held)) = .ok row ↔ _
  rw [Except.map_eq_ok]
  simp only [Except.mapM_eq_ok]

theorem nodup_of_entries {entries : List (String × Param)}
    (read : List.Forall₂ (fun member e => Decoder.entry Param.decode held member = .ok e)
      members entries)
    (distinct : (members.map fun member => member.1.text?).Nodup) :
    (entries.map Prod.fst).Nodup := by
  have same : members.map (fun member => member.1.text?) = (entries.map Prod.fst).map some := by
    induction read with
    | nil => rfl
    | cons first _ ih =>
      rw [List.map_cons, ih (List.nodup_cons.mp distinct).2, (Decoder.entry_ok_iff.mp first).1]
      rfl
  rw [same] at distinct
  exact List.Nodup.of_map _ distinct

theorem Row.decode_get? (distinct : (members.map fun member => member.1.text?).Nodup)
    (decoded : Row.decode ⟨.object members, held⟩ = .ok row) (name : String) (p : Param) :
    row.get? name = some p ↔
      ∃ member ∈ members, member.1.text? = some name ∧ Param.decode ⟨member.2, held⟩ = .ok p := by
  obtain ⟨entries, read, rfl⟩ := Row.decode_ok_iff.mp decoded
  rw [NameMap.get?_eq_some_iff, NameMap.mem_ofList_iff (nodup_of_entries read distinct)]
  obtain ⟨pairs, rfl, rfl, each⟩ := exists_pairs read
  simp only [Decoder.entry_ok_iff] at each
  constructor
  · intro inside
    obtain ⟨pair, among, same⟩ := List.mem_map.mp inside
    have made := each pair among
    rw [same] at made
    exact ⟨pair.1, List.mem_map_of_mem among, made⟩
  · rintro ⟨member, inside, named, valued⟩
    obtain ⟨pair, among, rfl⟩ := List.mem_map.mp inside
    obtain ⟨named', valued'⟩ := each pair among
    have same : pair.2 = (name, p) :=
      Prod.ext (Option.some.inj (named'.symm.trans named)) (Except.ok.inj (valued'.symm.trans valued))
    rw [← same]
    exact List.mem_map_of_mem among

theorem Row.decode_perm (distinct : (members.map fun member => member.1.text?).Nodup)
    (decoded : Row.decode ⟨.object members, held⟩ = .ok row) (permuted : members.Perm others) :
    Row.decode ⟨.object others, held⟩ = .ok row := by
  obtain ⟨entries, read, rfl⟩ := Row.decode_ok_iff.mp decoded
  obtain ⟨moved, read', permuted'⟩ := List.perm_comp_forall₂ permuted.symm read
  apply Row.decode_ok_iff.mpr
  exact ⟨moved, read', NameMap.ofList_perm (nodup_of_entries read distinct) permuted'.symm⟩

end Documents

def Query.misshapenRows (q : Query) : Set Nat :=
  {i | ∃ row ∈ q.rows[i]?, ∃ first ∈ q.rows.head?, ∃ name, row.contains name ≠ first.contains name}

theorem Row.sameColumns_iff {a b : Row} :
    a.sameColumns b = true ↔ ∀ name, a.contains name = b.contains name := by
  have each : ∀ name, a.contains name = b.contains name ↔ (name ∈ a.names ↔ name ∈ b.names) := by
    intro name
    rw [Bool.eq_iff_iff, NameMap.contains_iff, NameMap.contains_iff]
  rw [Row.sameColumns, beq_iff_eq]
  simp only [each]
  constructor
  · intro same name
    rw [same]
  · exact NameMap.names_ext

theorem Query.shape_reported {q : Query} {options : RenderOptions} (operation : q.operation = .insert)
    (clauses : q.checkClauses = .ok ()) {first : Row} (led : q.rows.head? = some first)
    (full : first.isEmpty = false) (differs : q.misshapenRows.Nonempty) :
    ∃ i, IsLeast q.misshapenRows i ∧ q.toSql options = .error (.rowShapeMismatch i) := by
  have misshapen (i : Nat) : i ∈ q.misshapenRows ↔
      ∃ row, q.rows[i]? = some row ∧ (!row.sameColumns first) = true := by
    simp [misshapenRows, led, ← Bool.not_eq_true, Row.sameColumns_iff]
  obtain ⟨rest, listed⟩ := List.head?_eq_some_iff.mp led
  have found : (q.rows.findIdx? fun row => !row.sameColumns first).isSome = true := by
    obtain ⟨j, other⟩ := differs
    obtain ⟨row, at_, unlike⟩ := (misshapen j).mp other
    rw [List.findIdx?_isSome, List.any_eq_true]
    exact ⟨row, List.mem_of_getElem? at_, unlike⟩
  obtain ⟨i, index⟩ := Option.isSome_iff_exists.mp found
  obtain ⟨inside, unlike, before⟩ := List.findIdx?_eq_some_iff_getElem.mp index
  refine ⟨i, ⟨?_, ?_⟩, ?_⟩
  · exact (misshapen i).mpr ⟨q.rows[i], List.getElem?_eq_getElem inside, unlike⟩
  · intro j other
    obtain ⟨row, at_, unlike'⟩ := (misshapen j).mp other
    by_contra earlier
    obtain ⟨within, rfl⟩ := List.getElem?_eq_some_iff.mp at_
    exact before j (by omega) unlike'
  · have shape : checkRows q.rows = .error (.rowShapeMismatch i) := by
      rw [listed] at index ⊢
      simp only [checkRows, full, index]
      rfl
    refine RenderOptions.run_eq_error_iff.mpr ?_
    rw [renderQuery_eq]
    simp only [renderOperation, operation, renderInsert, clauses, shape, Render.lift_eq]
    rfl

/-- Every value that is inserted comes into its own column. The columns of the text are those of
    the first row, in ascending order; there is one tuple for each row, and in it one placeholder
    for each column, that of the parameter which the row has for the column. In which order the
    columns of a row were given, by calls of `value` or in a document, makes no difference. The
    first row that has other columns than the first one is reported. -/
theorem Query.values_in_columns (q : Query) (options : RenderOptions)
    (operation : q.operation = .insert) :
    (∀ r, options.placeholders = .named → q.toSql options = .ok r →
      ∃ insertion, r.insertion options.dialect = some insertion ∧
        insertion.columns.Pairwise (· < ·) ∧
        (∀ name, name ∈ insertion.columns ↔ ∃ first ∈ q.rows.head?, first.contains name = true) ∧
        List.Forall₂ (fun row tuple =>
          List.Forall₂ (fun column placeholder => ∃ p, row.get? column = some p ∧
            placeholder = options.dialect.sigil ++ p.name) insertion.columns tuple)
          q.rows insertion.tuples) ∧
    (∀ calls row, Row.build calls = .ok row →
      (∀ name p, row.get? name = some p ↔ ∃ call ∈ calls, call.1.name = name ∧ call.2 = p) ∧
        ∀ others, calls.Perm others → Row.build others = .ok row) ∧
    (∀ members held row, (members.map fun member => member.1.text?).Nodup →
      Row.decode ⟨.object members, held⟩ = .ok row →
      (∀ name p, row.get? name = some p ↔
        ∃ member ∈ members, member.1.text? = some name ∧ Param.decode ⟨member.2, held⟩ = .ok p) ∧
        ∀ others, members.Perm others → Row.decode ⟨.object others, held⟩ = .ok row) ∧
    (∀ first, q.checkClauses = .ok () → q.rows.head? = some first → first.isEmpty = false →
      q.misshapenRows.Nonempty →
        ∃ i, IsLeast q.misshapenRows i ∧ q.toSql options = .error (.rowShapeMismatch i)) := by
  refine ⟨?_, ?_, ?_, ?_⟩
  · intro r named rendered
    obtain ⟨first, shaped, read⟩ := insertion_read operation named rendered
    obtain ⟨member, -, same⟩ := checkRows_ok shaped
    refine ⟨_, read, first.names_ascending, ?_, ?_⟩
    · intro name
      show name ∈ first.names ↔ _
      cases listed : q.rows with
      | nil =>
        rw [listed] at member
        cases member
      | cons head rest =>
        have columns : head.names = first.names :=
          same head (by rw [listed]; exact List.mem_cons_self)
        simp [NameMap.contains_iff, columns]
    · rw [List.forall₂_map_right_iff, List.forall₂_same]
      intro row inside
      show List.Forall₂ _ first.names _
      rw [← same row inside, NameMap.names, NameMap.values, List.map_map, List.forall₂_map_left_iff,
        List.forall₂_map_right_iff, List.forall₂_same]
      intro e among
      exact ⟨e.2, NameMap.get?_eq_some_iff.mpr among, rfl⟩
  · exact fun calls row built => ⟨Row.build_get? built, fun others => Row.build_perm built⟩
  · exact fun members held row distinct decoded =>
      ⟨Row.decode_get? distinct decoded, fun others => Row.decode_perm distinct decoded⟩
  · exact fun first clauses led full differs => shape_reported operation clauses led full differs

def agedParam : Param := ⟨"years", by decide⟩

def agedCalls : List (Field × Param) := [({ name := "name" }, idParam), ({ name := "age" }, agedParam)]

def agedRow : Row := .ofList [("age", agedParam), ("name", idParam)]

def agedInsert : Query :=
  { operation := .insert, table := { name := "users" }, rows := [agedRow, agedRow] }

def agedSent : Rendered where
  sql := "INSERT INTO \x22users\x22 (\x22age\x22, \x22name\x22) VALUES (:years, :id), (:years, :id)"
  params := ["years", "id"]

theorem agedInsert_columns :
    agedInsert.toSql {} = .ok agedSent ∧
      (∃ insertion, agedSent.insertion .postgres = some insertion ∧
        ∀ name, name ∈ insertion.columns ↔ ∃ first ∈ agedInsert.rows.head?, first.contains name) ∧
      Row.build agedCalls.reverse = .ok agedRow ∧
      Row.decode ⟨.object [(.text "age", .text "years"), (.text "name", .text "id")], false⟩ =
        .ok agedRow ∧
      ∃ i, { agedInsert with rows := [agedRow, .empty] }.toSql {} =
        .error (.rowShapeMismatch i) := by
  have rendered : agedInsert.toSql {} = .ok agedSent := rfl
  obtain ⟨placed, called, loaded, -⟩ := Query.values_in_columns agedInsert {} rfl
  have uneven := Query.values_in_columns { agedInsert with rows := [agedRow, .empty] } {} rfl
  obtain ⟨insertion, read, -, columns, -⟩ := placed agedSent rfl rendered
  have built : Row.build agedCalls = .ok agedRow := by rfl
  have decoded : Row.decode
      ⟨.object [(.text "name", .text "id"), (.text "age", .text "years")], false⟩ = .ok agedRow := by
    rfl
  have differs : { agedInsert with rows := [agedRow, .empty] }.misshapenRows.Nonempty :=
    ⟨1, .empty, rfl, agedRow, rfl, "age", by decide⟩
  obtain ⟨i, -, reported⟩ := uneven.2.2.2 agedRow (by decide) rfl (by decide) differs
  refine ⟨rendered, ⟨insertion, read, columns⟩, ?_, ?_, i, reported⟩
  · exact (called agedCalls agedRow built).2 _ (List.reverse_perm _).symm
  · exact (loaded _ false agedRow (by decide) decoded).2 _ (.swap _ _ _)

end TypedSql
