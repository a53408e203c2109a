import TypedSql.Proofs.Render.Contained

namespace TypedSql

section Tail
variable {items : List (List Lexeme)} {limit offset : Option UInt64} {ls : List Lexeme}

def tailClauses (items : List (List Lexeme)) (limit offset : Option UInt64) :
    List (QueryWord × List Lexeme) :=
  orderClauses items limit offset ++ pageClauses limit offset

theorem keywords_tailClauses : (tailClauses items limit offset).map Prod.fst ∈
    [[], [.order], [.order, .offset], [.order, .offset, .fetch]] := by
  cases items <;> cases limit <;> cases offset <;>
    simp [tailClauses, orderClauses, pageClauses]

theorem order_mem_tailClauses : (.order, ls) ∈ tailClauses items limit offset ↔
    (items ≠ [] ∧ ls = .word "BY".toList :: [Lexeme.sign ','].intercalate items) ∨
      (items = [] ∧ (limit.isSome || offset.isSome) = true ∧ ls = .word "BY".toList :: noOrder) := by
  cases items <;> cases limit <;> cases offset <;>
    simp [tailClauses, orderClauses, pageClauses]

theorem offset_mem_tailClauses : (∃ start, (.offset, start) ∈ tailClauses items limit offset) ↔
    (limit.isSome || offset.isSome) = true := by
  cases items <;> cases limit <;> cases offset <;>
    simp [tailClauses, orderClauses, pageClauses]

theorem fetch_mem_tailClauses : (.fetch, ls) ∈ tailClauses items limit offset ↔
    ∃ n, limit = some n ∧
      ls = [.word "NEXT".toList, numeral n, .word "ROWS".toList, .word "ONLY".toList] := by
  cases items <;> cases limit <;> cases offset <;>
    simp [tailClauses, orderClauses, pageClauses]

theorem rowCount_numeral (n : UInt64) :
    rowCount? [.word "NEXT".toList, numeral n, .word "ROWS".toList, .word "ONLY".toList] =
      some n.toNat := by
  have digits : ((toString n.toNat).toList.all Char.isDigit) = true :=
    List.all_eq_true.mpr (isDigit_toString _)
  have value : Nat.ofDigitChars 10 (toString n.toNat).toList 0 = n.toNat := by
    rw [Nat.toString_eq_ofList_toDigits, String.toList_ofList, Nat.ofDigitChars_ten_toDigits]
  rw [numeral, rowCount?, digits, value]
  rfl

theorem orderItems_listed (full : items ≠ []) (parted : ∀ item ∈ items, still isSeam 0 item = some 0) :
    orderItems (.word "BY".toList :: [Lexeme.sign ','].intercalate items) = items.map undirected := by
  have by_ : Lexeme.reads "BY" (.word "BY".toList) = true := by decide
  rw [orderItems, if_pos by_, entries_intercalate full parted]

theorem Page.admitted_iff {nested : Bool} {page : Page}
    (tail : page.tail = tailClauses items limit offset)
    (parted : ∀ item ∈ items, still isSeam 0 item = some 0)
    (listed : page.distinct = true ∨ page.combined = true →
      ∀ item ∈ items, page.Lists (undirected item)) :
    page.Admitted nested ↔
      limit ≠ some 0 ∧
        (page.distinct = true ∨ page.combined = true → items = [] →
          (limit.isSome || offset.isSome) = false) ∧
        (nested = true → items ≠ [] → (limit.isSome || offset.isSome) = true) := by
  constructor
  · rintro ⟨-, counted, lists, placed⟩
    rw [tail] at counted lists placed
    refine ⟨?_, ?_, ?_⟩
    · rintro rfl
      obtain ⟨n, counts, positive⟩ := counted _ (fetch_mem_tailClauses.mpr ⟨0, rfl, rfl⟩)
      rw [rowCount_numeral, Option.some.injEq] at counts
      subst counts
      exact absurd positive (by decide)
    · intro set none
      by_contra given
      have given := Bool.eq_true_of_not_eq_false given
      have unordered := lists set _ (order_mem_tailClauses.mpr (.inr ⟨none, given, rfl⟩)) noOrder
        (by decide)
      exact unordered.1 rfl
    · intro inside full
      exact offset_mem_tailClauses.mp
        (placed inside _ (order_mem_tailClauses.mpr (.inl ⟨full, rfl⟩)))
  · rintro ⟨counted, lists, placed⟩
    constructor
    · rw [tail]
      exact keywords_tailClauses
    · intro count member
      rw [tail] at member
      obtain ⟨n, rfl, rfl⟩ := fetch_mem_tailClauses.mp member
      refine ⟨n.toNat, rowCount_numeral n, Nat.one_le_iff_ne_zero.mpr fun none => ?_⟩
      exact counted (congrArg some (UInt64.toNat_inj.mp none))
    · intro set order member item among
      rw [tail] at member
      rcases order_mem_tailClauses.mp member with ⟨full, rfl⟩ | ⟨none, given, rfl⟩
      · rw [orderItems_listed full parted] at among
        obtain ⟨listedItem, inside, rfl⟩ := List.mem_map.mp among
        exact listed set _ inside
      · rw [lists set none] at given
        cases given
    · intro inside order member
      rw [tail] at member ⊢
      rcases order_mem_tailClauses.mp member with ⟨full, rfl⟩ | ⟨none, given, rfl⟩
      · exact offset_mem_tailClauses.mpr (placed inside full)
      · exact offset_mem_tailClauses.mpr given

end Tail

section Heads
variable {c : Context} {spell : Hole → String} {e : Expr} {s : Sql}

def Sql.isWorded (s : Sql) : Bool :=
  match s with
  | .name _ _ :: _ => true
  | .text t :: _ => t.toList.head?.any isInert
  | _ => false

theorem Sql.visible_of_isWorded (worded : s.isWorded = true) :
    ∃ x rest, s.visible spell = x :: rest ∧ x ≠ .sign '(' := by
  rcases s with - | ⟨p, rest⟩
  · cases worded
  cases p with
  | name kind n => exact ⟨_, _, rfl, by simp⟩
  | text t =>
    cases spelled : t.toList with
    | nil => simp [isWorded, spelled] at worded
    | cons c cs =>
      have inert : isInert c = true := by simpa [isWorded, spelled] using worded
      have lexed : Sql.lexemes spell (.text t :: rest) =
          gather c (cs.foldr gather (Sql.lexemes spell rest)) := by
        rw [Sql.lexemes_text_cons, spelled]
        rfl
      obtain ⟨w, more, gathered⟩ : ∃ w more, gather c (cs.foldr gather (Sql.lexemes spell rest)) =
          .word w :: more := by
        unfold gather
        rw [if_pos inert]
        split <;> exact ⟨_, _, rfl⟩
      rw [Sql.visible, lexed, gathered]
      exact ⟨.word w, TypedSql.visible more, rfl, by simp⟩
  | literal l => cases worded
  | hole use => cases worded

theorem Field.isWorded {d : Dialect} {f : Field} (made : f.render d = .ok s) : s.isWorded = true := by
  obtain ⟨steps, -, rfl⟩ := Field.render_ok_iff.mp made
  obtain ⟨n, qualifier, path⟩ := f
  rcases qualifier with _ | table | letter
  · rfl
  · rfl
  · have first : (letter.display ++ ".").toList = [letter.letter, '.'] := by
      simp [letter.toList_display]
    show (letter.display ++ ".").toList.head?.any isInert = true
    simp [first, isInert, letter.isWordRest_letter]

theorem Sql.isWorded_append {t : Sql} (worded : s.isWorded = true) : (s ++ t).isWorded = true := by
  cases s with
  | nil => cases worded
  | cons p rest => cases p <;> exact worded

theorem WindowCall.Calls.isWorded {w : WindowCall} {call : Sql} (calls : w.Calls c call) :
    call.isWorded = true := by
  cases calls with
  | ranking checked ranks bare => rcases ranks with ranks | ranks | ranks <;> rw [ranks] <;> rfl
  | ntile => rfl
  | shift checked shifted given columned styled =>
    rcases shifted with shifted | shifted <;> rw [shifted] <;> rfl
  | edge checked edged given columned => rcases edged with edged | edged <;> rw [edged] <;> rfl
  | @aggregate kind column checked aggregates columned => cases kind <;> rfl

theorem Renders.isWorded (made : Renders c (.expr e) s) : s.isWorded = true := by
  cases made with
  | field columned => exact Field.isWorded columned
  | @aggregate _ kind => cases kind <;> rfl
  | @filtered _ kind => cases kind <;> rfl
  | @chosen _ kind => cases kind <;> rfl
  | case | caseElse | coalesce | nullIf | cast => rfl
  | @math _ call column | @mathWith _ call column =>
    unfold Dialect.mathCall
    split
    · rfl
    · rfl
    · cases call.function <;> rfl
  | window called =>
    rw [List.append_assoc, List.append_assoc]
    exact Sql.isWorded_append called.isWorded
  | binary columned styled joined =>
    rcases Dialect.binary_ok joined with rfl | rfl | rfl
    · rfl
    · rw [List.append_assoc]
      exact Sql.isWorded_append (Field.isWorded columned)
    · rw [List.append_assoc]
      exact Sql.isWorded_append (Field.isWorded columned)

theorem Renders.expr_visible (marked : SpelledMarked spell) (sqlServer : c.dialect = .sqlServer)
    (made : Renders c (.expr e) s) :
    ∃ x rest, s.visible spell = x :: rest ∧ x ≠ .sign '(' ∧ x.reads "DISTINCT" = false := by
  obtain ⟨x, rest, text, other⟩ := Sql.visible_of_isWorded made.isWorded
  have settles : still isBreak 0 (s.visible spell) = some 0 := (made.embeds marked sqlServer).1
  rw [text, still_cons_eq_some] at settles
  refine ⟨x, rest, text, other, ?_⟩
  by_contra reads
  have stopped : isBreak x = true := by simp [isBreak, Bool.eq_true_of_not_eq_false reads]
  exact settles.1 ⟨rfl, .inl stopped⟩

theorem Sql.visible_aliased (kind : NameKind) (n : String) :
    Sql.visible spell (s ++ [Piece.text " AS ", .name kind n]) =
      s.visible spell ++ [Lexeme.word "AS".toList, .name n] := by
  have linked : Sql.visible spell (s ++ sql " AS " ++ [Piece.name kind n]) =
      s.visible spell ++ [Lexeme.word "AS".toList, .name n] :=
    Sql.visible_linked (by decide) (by decide)
  rwa [List.append_assoc] at linked

theorem Renders.projected_visible {f : FieldExpr} (marked : SpelledMarked spell)
    (sqlServer : c.dialect = .sqlServer) (made : Renders c (.projected f) s) :
    ∃ x rest, s.visible spell = x :: rest ∧ x.reads "DISTINCT" = false := by
  cases made with
  | projected plain =>
    obtain ⟨x, rest, text, -, other⟩ := plain.expr_visible marked sqlServer
    exact ⟨x, rest, text, other⟩
  | aliased plain =>
    obtain ⟨x, rest, text, -, other⟩ := plain.expr_visible marked sqlServer
    rw [Sql.visible_aliased, text]
    exact ⟨x, _, rfl, other⟩

theorem Renders.known_projected {f : FieldExpr} (marked : SpelledMarked spell)
    (sqlServer : c.dialect = .sqlServer) (made : Renders c (.projected f) s) :
    ∃ t, Renders c (.expr f.expr) t ∧
      known (s.visible spell) = t.visible spell :: f.alias?.toList.map fun a => [.name a.name] := by
  cases made with
  | projected plain => exact ⟨s, plain, known_plain (plain.embeds marked sqlServer).1⟩
  | @aliased _ e text output plain =>
    refine ⟨text, plain, ?_⟩
    rw [Sql.visible_aliased, known_named (plain.embeds marked sqlServer).1]
    rfl

theorem Renders.undirected_ordered {o : OrderBy} (marked : SpelledMarked spell)
    (sqlServer : c.dialect = .sqlServer) (made : Renders c (.ordered o) s) :
    ∃ t, Renders c (.expr o.expr) t ∧ undirected (s.visible spell) = t.visible spell := by
  cases made with
  | @ordered _ e text direction plain =>
    refine ⟨text, plain, ?_⟩
    have settles : still isBreak 0 (text.visible spell) = some 0 := (plain.embeds marked sqlServer).1
    rw [Sql.visible_closed (by cases direction <;> decide)]
    cases direction <;> exact undirected_append settles (by decide)
  | orderedNulls plain supported =>
    rw [sqlServer] at supported
    cases supported

end Heads

section Selected
variable {ls : List Lexeme} {entries : List (List Lexeme)} {distinct : Bool}
  {rest : List (QueryWord × List Lexeme)}

def selection (distinct : Bool) (entries : List (List Lexeme)) : List Lexeme :=
  (if distinct then [.word "DISTINCT".toList] else []) ++ [Lexeme.sign ','].intercalate entries

theorem page_of_selection (falls : FallsInto ls ((.select, selection distinct entries) :: rest))
    (full : entries ≠ []) (parted : ∀ entry ∈ entries, still isSeam 0 entry = some 0)
    (begins : ∀ entry ∈ entries, ∃ x more, entry = x :: more ∧ x.reads "DISTINCT" = false) :
    (page ls).distinct = distinct ∧ (page ls).selected = entries.flatMap known := by
  have plain : ([Lexeme.sign ','].intercalate entries).head?.any (Lexeme.reads "DISTINCT") = false := by
    cases entries with
    | nil => exact absurd rfl full
    | cons entry rest =>
      obtain ⟨x, more, rfl, other⟩ := begins entry List.mem_cons_self
      cases rest with
      | nil => simpa using other
      | cons next rest => simpa [List.intercalate_cons_cons] using other
  have listed := entries_intercalate full parted
  rw [page, falls.pieces_eq]
  show isDistinct (selection distinct entries) = distinct ∧
    selectedIn (selection distinct entries) = entries.flatMap known
  cases distinct with
  | true =>
    have word : isDistinct (selection true entries) = true := rfl
    rw [selectedIn, word, if_pos rfl]
    exact ⟨rfl, congrArg (List.flatMap known) listed⟩
  | false =>
    have none : isDistinct (selection false entries) = false := plain
    rw [selectedIn, none, if_neg (by simp)]
    exact ⟨rfl, congrArg (List.flatMap known) listed⟩

end Selected

section Cut
variable {c : Context} {spell : Hole → String} {s : Sql} {q : Query}

theorem closing_falls {items : List (OrderBy × Sql)}
    (order : ∀ o ∈ items, (Node.ordered o.1).Embeds spell o.2) (limit offset : Option UInt64) :
    FallsInto
      (Sql.visible spell (orderClause (items.map Prod.snd) ++
        sql (Dialect.sqlServer.pagination limit offset (!items.isEmpty))))
      (tailClauses (items.map fun o => o.2.visible spell) limit offset) := by
  obtain ⟨apart, -⟩ := Sql.Embeds.pagination limit offset (!items.isEmpty)
  rw [Sql.visible_append apart, Sql.visible_pagination]
  cases items with
  | nil =>
    have ordering : FallsInto
        (if limit.isNone && offset.isNone then []
          else .word "ORDER".toList :: .word "BY".toList :: noOrder)
        (orderClauses [] limit offset) := by
      unfold orderClauses
      simp only [List.isEmpty_nil, Bool.not_true, Bool.false_eq_true, ↓reduceIte]
      split
      · exact .nil
      · have settles : still Lexeme.isQueryWord 0 (.word "BY".toList :: noOrder) = some 0 := by decide
        exact .cons (by decide) settles .nil
    exact ordering.append .paged
  | cons o rest =>
    have listed : (Sql.commaList ((o :: rest).map Prod.snd)).Embeds Lexeme.isQueryWord spell 0 0
        (askedIn (fun o => (Part.ordered o).asked) ((o :: rest).map Prod.fst)) :=
      .join (by decide) (by decide) fun x member =>
        (order x member).weaken fun y => isSeam_of_isQueryWord
    have ordering : FallsInto (.word "ORDER".toList :: (Lexeme.word "BY".toList :: _ ++ []))
        [(.order, .word "BY".toList :: (Sql.commaList ((o :: rest).map Prod.snd)).visible spell)] :=
      .cons (by decide) (still_cons_eq_some.mpr ⟨by decide, listed.1⟩) .nil
    have text : (orderClause ((o :: rest).map Prod.snd)).visible spell =
        .word "ORDER".toList :: .word "BY".toList ::
          (Sql.commaList ((o :: rest).map Prod.snd)).visible spell := by
      show (sql " ORDER BY " ++ Sql.commaList ((o :: rest).map Prod.snd)).visible spell = _
      rw [Sql.visible_led (by decide)]
      rfl
    rw [List.append_nil] at ordering
    rw [text]
    rw [Sql.visible_commaList, List.map_map] at ordering ⊢
    exact ordering.append .paged

def projectedTexts (spell : Hole → String) (fields : List (FieldExpr × Sql)) : List (List Lexeme) :=
  if fields.isEmpty then [[.sign '*']] else fields.map fun f => f.2.visible spell

theorem projectedTexts_ne_nil (fields : List (FieldExpr × Sql)) : projectedTexts spell fields ≠ [] := by
  cases fields <;> simp [projectedTexts]

theorem visible_selected {distinct : Sql} {fields : List (FieldExpr × Sql)}
    (distinctly : renderDistinct .sqlServer q.distinct q.distinctOn = .ok distinct) :
    (distinct ++ projection (fields.map Prod.snd)).visible spell =
      selection q.distinct (projectedTexts spell fields) := by
  have listed : (projection (fields.map Prod.snd)).visible spell =
      [Lexeme.sign ','].intercalate (projectedTexts spell fields) := by
    cases fields with
    | nil => rfl
    | cons f rest =>
      show (Sql.commaList ((f :: rest).map Prod.snd)).visible spell = _
      rw [Sql.visible_commaList, List.map_map]
      rfl
  rw [renderDistinct_sqlServer distinctly, selection, ← listed]
  cases q.distinct with
  | true => exact Sql.visible_led (by decide)
  | false => rfl

theorem visible_select {a b t : Sql} (apart : Apart (t.lexemes spell)) :
    (sql "SELECT " ++ (a ++ sql " FROM " ++ (b ++ t))).visible spell =
      .word "SELECT".toList :: (a.visible spell ++ Lexeme.word "FROM".toList ::
        (b.visible spell ++ t.visible spell)) := by
  rw [Sql.visible_led (by decide), Sql.visible_linked (by decide) (by decide),
    Sql.visible_append apart]
  rfl

theorem Query.select_falls (marked : SpelledMarked spell) (sqlServer : c.dialect = .sqlServer)
    (operation : q.operation = .select) (made : Renders c (.query q) s) :
    ∃ (fields : List (FieldExpr × Sql)) (items : List (OrderBy × Sql)) (source : List Lexeme),
      q.fields = fields.map Prod.fst ∧ (∀ f ∈ fields, Renders c (.projected f.1) f.2) ∧
        q.orderBy = items.map Prod.fst ∧ (∀ o ∈ items, Renders c (.ordered o.1) o.2) ∧
        FallsInto (s.visible spell)
          ((.select, selection q.distinct (projectedTexts spell fields)) :: (.source, source) ::
            tailClauses (items.map fun o => o.2.visible spell) q.limit q.offset) := by
  cases made with
  | @select _ _ distinct lock groupBy fields joins filter having items operation clauses rules
      distinctly fieldsListed projects locks joinsListed joined filterGiven filters groups havingGiven
      havings itemsListed order =>
    rw [sqlServer] at distinctly locks
    have selected := selected_embeds distinctly fun f member => (projects f member).embeds marked sqlServer
    have source := source_embeds locks groups
      (fun j member => (joined j member).embeds marked sqlServer)
      (fun x member => (filters x member).embeds marked sqlServer)
      fun x member => (havings x member).embeds marked sqlServer
    have ordered := fun o (member : o ∈ items) => (order o member).embeds marked sqlServer
    have closing := closing_falls ordered q.limit q.offset
    obtain ⟨apart, -⟩ := closing_embeds ordered q.limit q.offset (!items.isEmpty)
    have same : (!q.orderBy.isEmpty) = !items.isEmpty := by rw [itemsListed]; cases items <;> rfl
    have falls : FallsInto (.word "SELECT".toList :: (_ ++ Lexeme.word "FROM".toList :: (_ ++ _)))
        ((.select, _) :: (.source, _) :: _) :=
      .cons (by decide) selected.1 (.cons (by decide) source.1 closing)
    rw [← visible_select apart, visible_selected distinctly] at falls
    rw [selectText, sqlServer, renderLock_sqlServer locks, List.append_nil, same]
    simp only [List.append_assoc] at falls ⊢
    exact ⟨fields, items, _, fieldsListed, projects, itemsListed, order, falls⟩
  | count other | insert other | update other | delete other =>
    rw [operation] at other
    cases other

theorem Query.count_falls (marked : SpelledMarked spell) (sqlServer : c.dialect = .sqlServer)
    (operation : q.operation = .count) (made : Renders c (.query q) s) :
    ∃ selected source, FallsInto (s.visible spell) [(.select, selected), (.source, source)] := by
  cases made with
  | @count _ _ joins filter operation clauses joinsListed joined filterGiven filters =>
    have table : q.table.render.Embeds isBreak spell 0 0 ∅ := q.table.embeds
    obtain ⟨apart, further⟩ := Sql.Embeds.joins fun j member => (joined j member).embeds marked sqlServer
    obtain ⟨apart', wheres⟩ := Sql.Embeds.conditional "WHERE" (by decide) (by decide)
      fun x member => (filters x member).embeds marked sqlServer
    have source := ((table.append apart further).append apart' wheres).weaken
      fun x => isBreak_of_isQueryWord
    have counting : still Lexeme.isQueryWord 0
        [.word "COUNT".toList, .sign '(', .sign '*', .sign ')'] = some 0 := by decide
    have falls : FallsInto (.word "SELECT".toList :: (_ ++ Lexeme.word "FROM".toList :: (_ ++ [])))
        [(.select, _), (.source, _)] :=
      .cons (by decide) counting (.cons (by decide) source.1 .nil)
    have text : (sql "SELECT COUNT(*) FROM " ++ (q.table.render ++ (joins.map Prod.snd).flatten ++
        conditional "WHERE" (filter.map Prod.snd))).visible spell = _ := Sql.visible_led (by decide)
    rw [List.append_nil] at falls
    simp only [countText, List.append_assoc] at text falls ⊢
    rw [text]
    exact ⟨_, _, falls⟩
  | select other | insert other | update other | delete other =>
    rw [operation] at other
    cases other

end Cut

section Operands
variable {c : Context} {spell : Hole → String} {s : Sql} {q : Query}

theorem plain_of_checkOperands {index : Nat} {queries : List Query}
    (checked : checkOperands index queries = .ok ()) {q : Query} (member : q ∈ queries) :
    q.operation = .select ∧ q.orderBy = [] ∧ q.limit = none ∧ q.offset = none := by
  induction queries generalizing index with
  | nil => simp at member
  | cons head rest ih =>
    cases fault : head.operandFault? with
    | some other => simp [checkOperands, fault] at checked
    | none =>
      simp only [checkOperands, fault] at checked
      rcases List.mem_cons.mp member with rfl | member
      · unfold Query.operandFault? at fault
        split at fault
        · cases fault
        split at fault
        · cases fault
        split at fault
        · cases fault
        · rename_i operation order pages
          simp at operation order pages
          exact ⟨operation, order, pages.1, pages.2⟩
      · exact ih checked member

theorem Query.operand_falls (marked : SpelledMarked spell) (sqlServer : c.dialect = .sqlServer)
    (plain : q.operation = .select ∧ q.orderBy = [] ∧ q.limit = none ∧ q.offset = none)
    (made : Renders c (.query q) s) :
    ∃ (fields : List (FieldExpr × Sql)) (source : List Lexeme),
      q.fields = fields.map Prod.fst ∧ (∀ f ∈ fields, Renders c (.projected f.1) f.2) ∧
        FallsInto (s.visible spell)
          [(.select, selection q.distinct (projectedTexts spell fields)), (.source, source)] := by
  obtain ⟨operation, none, limit, offset⟩ := plain
  obtain ⟨fields, items, source, listed, projects, itemsListed, -, falls⟩ :=
    Query.select_falls marked sqlServer operation made
  have empty : items = [] := List.map_eq_nil_iff.mp (itemsListed.symm.trans none)
  rw [empty, limit, offset] at falls
  exact ⟨fields, source, listed, projects, falls⟩

theorem FallsInto.words (op : SetOperation) {ls : List Lexeme}
    {clauses : List (QueryWord × List Lexeme)} (falls : FallsInto ls clauses) :
    ∃ all, FallsInto (op.words ++ ls) ((.combine, all) :: clauses) := by
  cases op with
  | union | intersect | except => exact ⟨[], .cons (by decide) rfl falls⟩
  | unionAll | intersectAll | exceptAll =>
    exact ⟨[.word "ALL".toList], .cons (by decide) (by decide) falls⟩

theorem apart_operands (parts : List (CompoundPart × Sql)) :
    Apart (Sql.lexemes spell (parts.map furtherOperand).flatten) := by
  cases parts with
  | nil => trivial
  | cons p parts =>
    have begins : opened (" " ++ p.1.op.display ++ " ").toList = true := by cases p.1.op <;> decide
    simp only [List.map_cons, List.flatten_cons, furtherOperand, List.append_assoc]
    exact Sql.apart_of_opened begins

theorem operands_fall (marked : SpelledMarked spell) (sqlServer : c.dialect = .sqlServer)
    {parts : List (CompoundPart × Sql)}
    (plain : ∀ p ∈ parts, p.1.query.operation = .select ∧ p.1.query.orderBy = [] ∧
      p.1.query.limit = none ∧ p.1.query.offset = none)
    (made : ∀ p ∈ parts, Renders c (.query p.1.query) p.2) :
    ∃ clauses, FallsInto (Sql.visible spell (parts.map furtherOperand).flatten) clauses ∧
      (∀ clause ∈ clauses, clause.1.isOperand = true) ∧
      (parts ≠ [] → ∃ all, (.combine, all) ∈ clauses) := by
  induction parts with
  | nil => exact ⟨[], .nil, by simp, by simp⟩
  | cons p parts ih =>
    obtain ⟨first, others⟩ := List.forall_mem_cons.mp plain
    obtain ⟨made, more⟩ := List.forall_mem_cons.mp made
    obtain ⟨clauses, falls, operands, -⟩ := ih others more
    obtain ⟨fields, source, -, -, cut⟩ := Query.operand_falls marked sqlServer first made
    obtain ⟨all, combined⟩ := cut.words p.1.op
    have ends : closed (" " ++ p.1.op.display ++ " ").toList = true := by cases p.1.op <;> decide
    have text : Sql.visible spell ((p :: parts).map furtherOperand).flatten =
        (p.1.op.words ++ p.2.visible spell) ++
          Sql.visible spell (parts.map furtherOperand).flatten := by
      rw [List.map_cons, List.flatten_cons, Sql.visible_append (apart_operands parts),
        furtherOperand, Sql.visible_led ends, visible_display]
    rw [text]
    refine ⟨_, combined.append falls, ?_, fun _ => ⟨all, List.mem_cons_self⟩⟩
    simpa [QueryWord.isOperand] using operands

end Operands
end TypedSql
