import TypedSql.Proofs.Sql.Lexer

namespace TypedSql

/-- Takes a quoted text off the front, and gives what its quotes hold and what follows them. -/
def unquote (opening closing : Char) (text : String) : Option (String × String) :=
  match text.toList with
  | [] => none
  | c :: rest =>
    if c = opening then
      (readQuoted closing none rest).map fun read => (String.ofList read.1, String.ofList read.2)
    else none

theorem readQuoted_suffix {closing : Char} {escape : Option Char} {cs : List Char}
    {read : List Char × List Char} (success : readQuoted closing escape cs = some read) :
    read.2 <:+ cs := by
  fun_induction readQuoted closing escape cs generalizing read with
  | case1 => cases success
  | case2 => cases success; exact List.nil_suffix
  | case3 => cases success
  | case6 => cases success; exact List.suffix_cons _ _
  | case4 | case5 =>
    rename_i ih
    obtain ⟨inner, found, rfl⟩ := Option.map_eq_some_iff.mp success
    exact (ih found).trans ((List.suffix_cons _ _).trans (List.suffix_cons _ _))
  | case7 =>
    rename_i ih
    obtain ⟨inner, found, rfl⟩ := Option.map_eq_some_iff.mp success
    exact (ih found).trans (List.suffix_cons _ _)

section Unquote
variable {opening closing : Char}

theorem unquote_quoted_append (name following : String) :
    unquote opening closing (quoted opening closing name ++ following) =
      (readQuoted closing none (closing :: following.toList)).map fun read =>
        (String.ofList (name.toList ++ read.1), String.ofList read.2) := by
  have listed : (quoted opening closing name ++ following).toList =
      opening :: (doubled closing name.toList ++ closing :: following.toList) := by
    simp [quoted]
  rw [unquote, listed]
  simp only [↓reduceIte, readQuoted_append, Option.map_map]
  rfl

theorem unquote_quoted (name : String) {following : String}
    (ends : following.toList.head? ≠ some closing) :
    unquote opening closing (quoted opening closing name ++ following) =
      some (name, following) := by
  rw [unquote_quoted_append, readQuoted_closing ends]
  simp

theorem unquote_after (name following : String) {read left : String}
    (success : unquote opening closing (quoted opening closing name ++ following) =
      some (read, left)) :
    name.toList <+: read.toList ∧ left.toList <:+ following.toList := by
  rw [unquote_quoted_append, Option.map_eq_some_iff] at success
  obtain ⟨inner, found, same⟩ := success
  rw [Prod.mk.injEq] at same
  obtain ⟨rfl, rfl⟩ := same
  rw [String.toList_ofList, String.toList_ofList]
  have shorter := readQuoted_length found
  rcases List.suffix_cons_iff.mp (readQuoted_suffix found) with whole | later
  · rw [whole] at shorter
    exact absurd shorter (Nat.lt_irrefl _)
  · exact ⟨List.prefix_append _ _, later⟩

end Unquote

/-- Between any two delimiters a name is read back as it was, and so is what follows it unless
    that begins with the closing delimiter. Then the quotes go on, but no name ends its own quotes
    early. So the quoted names that begin two such texts tell the names and the rests apart. -/
theorem quoted_decodes (opening closing : Char) :
    (∀ name following : String, following.toList.head? ≠ some closing →
      unquote opening closing (quoted opening closing name ++ following) =
        some (name, following)) ∧
    (∀ name following read left,
      unquote opening closing (quoted opening closing name ++ following) = some (read, left) →
        name.toList <+: read.toList ∧ left.toList <:+ following.toList) ∧
    (∀ name other following following' : String, following.toList.head? ≠ some closing →
      following'.toList.head? ≠ some closing →
      quoted opening closing name ++ following = quoted opening closing other ++ following' →
        name = other ∧ following = following') ∧
    Function.Injective (quoted opening closing) := by
  have apart : ∀ name other following following' : String,
      following.toList.head? ≠ some closing → following'.toList.head? ≠ some closing →
      quoted opening closing name ++ following = quoted opening closing other ++ following' →
        name = other ∧ following = following' := by
    intro name other following following' ends ends' same
    have read : unquote opening closing (quoted opening closing name ++ following) =
        some (name, following) := unquote_quoted name ends
    rw [same, unquote_quoted other ends', Option.some.injEq, Prod.mk.injEq] at read
    exact ⟨read.1.symm, read.2.symm⟩
  refine ⟨fun name _ ends => unquote_quoted name ends,
    fun name following _ _ => unquote_after name following, apart, fun name other same => ?_⟩
  exact (apart name other "" "" (by simp) (by simp) (by rw [same])).1

example : quoted '[' ']' "a]" ++ "]x" = "[a]]]]x" ∧
    unquote '[' ']' (quoted '[' ']' "a]" ++ "]x") = none := by
  decide

end TypedSql
