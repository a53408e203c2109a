import TypedSql.Proofs.Render.Embedding
import TypedSql.Proofs.Sql.Insertion

namespace TypedSql

def numeral (n : UInt64) : Lexeme := .word (toString n.toNat).toList

def pageClauses (limit offset : Option UInt64) : List (QueryWord × List Lexeme) :=
  if limit.isNone && offset.isNone then []
  else
    (.offset, [numeral (offset.getD 0), .word "ROWS".toList]) ::
      limit.toList.map fun n =>
        (.fetch, [.word "NEXT".toList, numeral n, .word "ROWS".toList, .word "ONLY".toList])

def orderClauses (items : List (List Lexeme)) (limit offset : Option UInt64) :
    List (QueryWord × List Lexeme) :=
  if !items.isEmpty then [(.order, .word "BY".toList :: List.intercalate [.sign ','] items)]
  else if limit.isNone && offset.isNone then []
  else [(.order, .word "BY".toList :: noOrder)]

section Text
variable {spell : Hole → String} {a b pre post : String}

theorem Sql.visible_texts (parted : closed a.toList = true ∨ opened b.toList = true) :
    (sql (a ++ b)).visible spell = (sql a).visible spell ++ (sql b).visible spell := by
  have split : Sql.lexemes spell (sql (a ++ b) ++ []) = _ := Sql.lexemes_sql_append a b []
  rw [List.append_nil, List.append_nil] at split
  have whole : (sql (a ++ b)).visible spell = (sql a ++ sql b).visible spell :=
    congrArg TypedSql.visible split
  rcases parted with ends | begins
  · rw [whole, Sql.visible_led ends, ← Sql.visible_sql]
  · rw [whole, Sql.visible_closed begins, ← Sql.visible_sql]

theorem opened_append (begins : opened a.toList = true) : opened (a ++ b).toList = true := by
  rw [String.toList_append]
  cases spelled : a.toList with
  | nil => simp [opened, spelled] at begins
  | cons c cs => simpa [opened, spelled] using begins

theorem closed_append (ends : closed b.toList = true) : closed (a ++ b).toList = true := by
  rw [String.toList_append, closed, List.getLast?_append]
  cases last : b.toList.getLast? with
  | none => simp [closed, last] at ends
  | some c => simpa [closed, last] using ends

theorem Sql.Embeds.texts {stop : Lexeme → Bool} {p q r : Nat}
    (parted : TypedSql.closed a.toList = true ∨ opened b.toList = true)
    (first : (sql a).Embeds stop spell p q ∅) (second : (sql b).Embeds stop spell q r ∅) :
    (sql (a ++ b)).Embeds stop spell p r ∅ := by
  rw [Sql.Embeds, Sql.visible_texts parted, ← Set.empty_union ∅]
  exact chained first second

theorem Sql.apart_sql (begins : opened a.toList = true) : Apart ((sql a).lexemes spell) := by
  have apart : Apart ((sql a ++ []).lexemes spell) := Sql.apart_of_opened begins
  rwa [List.append_nil] at apart

theorem Sql.visible_counted (n : UInt64) (ends : closed pre.toList = true)
    (begins : opened post.toList = true) :
    (sql (pre ++ toString n.toNat ++ post)).visible spell =
      (sql pre).visible spell ++ numeral n :: (sql post).visible spell := by
  have number : (sql (toString n.toNat)).visible spell = [numeral n] := by
    rw [Sql.visible_sql, foldr_gather_word (isInert_toString _) (toList_toString_ne_nil _)]
    rfl
  rw [Sql.visible_texts (.inr begins), Sql.visible_texts (.inl ends), number, List.append_assoc]
  rfl

def pageText (limit offset : Option UInt64) : List Lexeme :=
  if limit.isNone && offset.isNone then []
  else
    .word "OFFSET".toList :: numeral (offset.getD 0) :: .word "ROWS".toList ::
      limit.elim [] fun n =>
        [.word "FETCH".toList, .word "NEXT".toList, numeral n, .word "ROWS".toList,
          .word "ONLY".toList]

theorem Sql.visible_pagination (limit offset : Option UInt64) (ordered : Bool) :
    (sql (Dialect.sqlServer.pagination limit offset ordered)).visible spell =
      (if ordered || (limit.isNone && offset.isNone) then []
        else .word "ORDER".toList :: .word "BY".toList :: noOrder) ++ pageText limit offset := by
  unfold Dialect.pagination
  simp only
  by_cases whole : (limit.isNone && offset.isNone) = true
  · rw [if_pos whole, pageText, if_pos whole, whole, Bool.or_true]
    rfl
  · rw [if_neg whole, pageText, if_neg whole, Bool.eq_false_of_not_eq_true whole, Bool.or_false]
    cases limit with
    | none =>
      rw [Option.elim_none, String.append_empty]
      cases ordered <;> rw [Sql.visible_counted _ (by decide) (by decide)] <;> rfl
    | some n =>
      have fetching : opened (" FETCH NEXT " ++ toString n.toNat ++ " ROWS ONLY").toList = true :=
        opened_append (opened_append (by decide))
      rw [Option.elim_some, Sql.visible_texts (.inr fetching), Sql.visible_counted n (by decide) (by decide)]
      cases ordered <;> rw [Sql.visible_counted _ (by decide) (by decide)] <;> rfl

end Text

section Page
variable {spell : Hole → String} {limit offset : Option UInt64}

theorem isBare_numeral (n : UInt64) : (numeral n).isBare = true :=
  isBare_of_digits (isDigit_toString _)

def pageWords : List Lexeme :=
  [.word "OFFSET".toList, .word "FETCH".toList, .word "NEXT".toList, .word "ROWS".toList,
    .word "ONLY".toList]

theorem forall_mem_pageText {P : Lexeme → Prop} (number : ∀ n, P (numeral n))
    (fixed : ∀ x ∈ pageWords, P x) : ∀ x ∈ pageText limit offset, P x := by
  unfold pageText
  split
  · simp
  · cases limit with
    | none =>
      simp only [Option.elim_none, List.forall_mem_cons]
      exact ⟨fixed _ (by decide), number _, fixed _ (by decide), nofun⟩
    | some n =>
      simp only [Option.elim_some, List.forall_mem_cons]
      exact ⟨fixed _ (by decide), number _, fixed _ (by decide), fixed _ (by decide),
        fixed _ (by decide), number _, fixed _ (by decide), fixed _ (by decide), nofun⟩

theorem Houses.paged : still noStop 0 (pageText limit offset) = some 0 ∧
    Houses spell (pageText limit offset) ∅ := by
  constructor
  · exact still_of_unbracketed (forall_mem_pageText (fun n => ⟨rfl, nofun, nofun⟩) (by decide))
  · refine .of_selectless (List.all_eq_true.mpr (forall_mem_pageText (fun n => ?_) (by decide)))
    rw [Lexeme.reads_of_bare (isBare_numeral n) "SELECT" (by decide)]
    rfl

theorem FallsInto.paged : FallsInto (pageText limit offset) (pageClauses limit offset) := by
  have number (n : UInt64) : (numeral n).isQueryWord = false ∧ numeral n ≠ .sign '(' ∧
      numeral n ≠ .sign ')' := ⟨isQueryWord_of_bare (isBare_numeral n), nofun, nofun⟩
  have start (n : UInt64) : still Lexeme.isQueryWord 0 [numeral n, .word "ROWS".toList] = some 0 :=
    still_of_unbracketed (List.forall_mem_cons.mpr ⟨number n, by decide⟩)
  have count (n : UInt64) : still Lexeme.isQueryWord 0
      [.word "NEXT".toList, numeral n, .word "ROWS".toList, .word "ONLY".toList] = some 0 :=
    still_of_unbracketed (List.forall_mem_cons.mpr
      ⟨by decide, List.forall_mem_cons.mpr ⟨number n, by decide⟩⟩)
  unfold pageText pageClauses
  split
  · exact .nil
  · refine .cons (by decide) (start _) ?_
    cases limit with
    | none => exact .nil
    | some n => exact .cons (by decide) (count n) .nil

theorem Houses.unordered : Houses spell (.word "ORDER".toList :: .word "BY".toList :: noOrder) ∅ := by
  have nothing : Contains spell [.word "SELECT".toList, .word "NULL".toList] ∅ := by
    have none : nestedQueries [.word "SELECT".toList, .word "NULL".toList] = [] := by decide
    exact ⟨by rw [none]; simp, by simp⟩
  have admitted : (page [.word "SELECT".toList, .word "NULL".toList]).Admitted true :=
    Page.admitted_of_tail (by decide)
  have settles : still noStop 0 [.word "SELECT".toList, .word "NULL".toList] = some 0 := by decide
  have bracketed : Houses spell noOrder (∅ ∪ ∅) :=
    .bracketed (by decide) settles nothing (.inl admitted) (by simp)
  have words : Houses spell [.word "ORDER".toList, .word "BY".toList] ∅ :=
    .of_selectless (by decide)
  have whole := words.append bracketed
  rwa [Set.empty_union, Set.empty_union] at whole

theorem Sql.Embeds.pagination (limit offset : Option UInt64) (ordered : Bool) :
    Apart ((sql (Dialect.sqlServer.pagination limit offset ordered)).lexemes spell) ∧
      (sql (Dialect.sqlServer.pagination limit offset ordered)).Embeds noStop spell 0 0 ∅ := by
  constructor
  · unfold Dialect.pagination
    simp only
    split
    · exact trivial
    · have start : opened ((if ordered then "" else " ORDER BY (SELECT NULL)") ++ " OFFSET ").toList =
          true := by
        cases ordered <;> decide
      exact Sql.apart_sql (opened_append (opened_append (opened_append start)))
  · rw [Sql.Embeds, Sql.visible_pagination]
    split
    · exact Houses.paged
    · rw [← Set.empty_union ∅]
      exact Sql.Embeds.chained (q := 0) ⟨by decide, Houses.unordered⟩ Houses.paged

end Page

section Lists
variable {spell : Hole → String}

theorem visible_commaed (parts : List (List Lexeme)) :
    visible (commaed parts) = List.intercalate [.sign ','] (parts.map visible) := by
  unfold commaed
  induction parts with
  | nil => rfl
  | cons part rest ih =>
    cases rest with
    | nil => simp
    | cons next rest =>
      have shown : [Lexeme.sign ','].intercalate ((part :: next :: rest).map visible) =
          visible part ++ [Lexeme.sign ','] ++
            [Lexeme.sign ','].intercalate ((next :: rest).map visible) :=
        List.intercalate_cons_cons
      rw [List.intercalate_cons_cons, visible_append, visible_append, ih, shown]
      rfl

theorem Sql.visible_commaList (parts : List Sql) :
    (Sql.commaList parts).visible spell =
      List.intercalate [.sign ','] (parts.map (Sql.visible spell)) := by
  rw [Sql.visible, Sql.lexemes_commaList, visible_commaed, List.map_map]
  rfl

end Lists
end TypedSql
