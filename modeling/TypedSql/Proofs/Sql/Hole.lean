import TypedSql.Sql.Basic

namespace TypedSql

theorem isWordRest_of_start {c : Char} (starts : isWordStart c = true) : isWordRest c = true := by
  simp only [isWordStart, isWordRest, Bool.or_eq_true, Char.isAlphanum] at starts ⊢
  rcases starts with letter | underscore
  · exact .inl (.inl letter)
  · exact .inr underscore

theorem isWordRest_of_isDigit {c : Char} (digit : c.isDigit = true) : isWordRest c = true := by
  simp [isWordRest, Char.isAlphanum, digit]

theorem word_of_checkWord {kind : NameKind} {name : String} (word : checkWord kind name = .ok ()) :
    ∃ c rest, name.toList = c :: rest ∧ isWordStart c = true ∧ ∀ x ∈ rest, isWordRest x = true := by
  unfold checkWord at word
  split at word
  · cases word
  · rename_i c rest spelled
    cases starts : isWordStart c with
    | false => simp [starts] at word
    | true =>
      cases continues : rest.all isWordRest with
      | false => simp [starts, continues] at word
      | true => exact ⟨c, rest, spelled, starts, List.all_eq_true.mp continues⟩

theorem isWordRest_of_checkWord {kind : NameKind} {name : String}
    (word : checkWord kind name = .ok ()) : ∀ c ∈ name.toList, isWordRest c = true := by
  obtain ⟨c, rest, spelled, starts, continues⟩ := word_of_checkWord word
  rw [spelled]
  exact List.forall_mem_cons.mpr ⟨isWordRest_of_start starts, continues⟩

theorem gate_of_checkName {kind : NameKind} {name : String}
    (admitted : checkName kind name = .ok ()) :
    checkWord kind name = .ok () ∧ ¬ (kind = .parameter ∧ hasSubqueryPrefix name.toList = true) := by
  unfold checkName at admitted
  split at admitted
  · cases admitted
  split at admitted
  · cases admitted
  split at admitted
  · cases admitted
  · rename_i word
    split at admitted
    · cases admitted
    · rename_i unreserved
      exact ⟨word, unreserved⟩

theorem Param.admits (p : Param) :
    (∀ c ∈ p.name.toList, isWordRest c = true) ∧ hasSubqueryPrefix p.name.toList = false := by
  obtain ⟨word, unreserved⟩ := gate_of_checkName p.admitted
  have apart : hasSubqueryPrefix p.name.toList = false := by simpa using unreserved
  exact ⟨isWordRest_of_checkWord word, apart⟩

theorem toList_depthPrefix {depth : Nat} (inside : depth ≠ 0) :
    (depthPrefix depth).toList = 's' :: 'q' :: (Nat.toDigits 10 depth ++ ['_']) := by
  simp [depthPrefix, inside]

theorem isDigit_of_mem_toDigits {depth : Nat} {c : Char} (member : c ∈ Nat.toDigits 10 depth) :
    c.isDigit = true := Nat.isDigit_of_mem_toDigits (by omega) (by omega) member

theorem isWordRest_name (use : Hole) : ∀ c ∈ use.name.toList, isWordRest c = true := by
  intro c member
  simp only [Hole.name, String.toList_append, List.mem_append] at member
  rcases member with generated | chosen
  · by_cases inside : use.depth = 0
    · simp [depthPrefix, inside] at generated
    · rw [toList_depthPrefix inside] at generated
      simp only [List.mem_cons, List.mem_append, List.not_mem_nil, or_false] at generated
      rcases generated with rfl | rfl | digit | rfl
      · decide
      · decide
      · exact isWordRest_of_isDigit (isDigit_of_mem_toDigits digit)
      · decide
  · exact use.param.admits.1 c chosen

theorem hasSubqueryPrefix_depthPrefix {depth : Nat} (inside : depth ≠ 0) (chosen : List Char) :
    hasSubqueryPrefix ((depthPrefix depth).toList ++ chosen) = true := by
  rw [toList_depthPrefix inside]
  cases digits : Nat.toDigits 10 depth with
  | nil => exact absurd digits Nat.toDigits_ne_nil
  | cons d rest =>
    have each : ∀ c ∈ d :: rest, c.isDigit = true := fun c member =>
      isDigit_of_mem_toDigits (digits ▸ member)
    have skipped : (rest ++ '_' :: chosen).dropWhile Char.isDigit = '_' :: chosen := by
      rw [List.dropWhile_append_of_pos fun c member => each c (List.mem_cons_of_mem _ member)]
      rfl
    simp [hasSubqueryPrefix, each d List.mem_cons_self, skipped]

theorem hasSubqueryPrefix_name {use : Hole} (inside : use.depth ≠ 0) :
    hasSubqueryPrefix use.name.toList = true := by
  rw [Hole.name, String.toList_append]
  exact hasSubqueryPrefix_depthPrefix inside _

theorem digits_append_inj {first second rest rest' : List Char}
    (digits : ∀ c ∈ first, c.isDigit = true) (digits' : ∀ c ∈ second, c.isDigit = true)
    (same : first ++ '_' :: rest = second ++ '_' :: rest') : first = second ∧ rest = rest' := by
  have taken := congrArg (List.takeWhile Char.isDigit) same
  rw [List.takeWhile_append_of_pos digits, List.takeWhile_append_of_pos digits'] at taken
  have stops : ∀ cs, List.takeWhile Char.isDigit ('_' :: cs) = [] := by simp
  rw [stops, stops, List.append_nil, List.append_nil] at taken
  subst taken
  exact ⟨rfl, by simpa using same⟩

/-- The name of a placeholder tells its parameter and its depth. -/
theorem Hole.name_inj {a b : Hole} (same : a.name = b.name) : a = b := by
  have listed := congrArg String.toList same
  by_cases outer : a.depth = 0
  · by_cases outer' : b.depth = 0
    · have names : a.param.name = b.param.name := by
        simpa [Hole.name, depthPrefix, outer, outer'] using same
      obtain ⟨depth, ⟨name, admitted⟩⟩ := a
      obtain ⟨depth', ⟨name', admitted'⟩⟩ := b
      simp_all
    -- only one of the two names bears the mark of a subquery
    · have marked := hasSubqueryPrefix_name outer'
      have plain := a.param.admits.2
      rw [← listed] at marked
      simp [Hole.name, depthPrefix, outer, plain] at marked
  · by_cases outer' : b.depth = 0
    · have marked := hasSubqueryPrefix_name outer
      have plain := b.param.admits.2
      rw [listed] at marked
      simp [Hole.name, depthPrefix, outer', plain] at marked
    -- the digits end at the first underscore, which tells depth and name apart
    · simp only [Hole.name, String.toList_append, toList_depthPrefix outer,
        toList_depthPrefix outer', List.cons_append, List.append_assoc, List.nil_append,
        List.cons.injEq, true_and] at listed
      obtain ⟨digits, names⟩ := digits_append_inj (fun c => isDigit_of_mem_toDigits)
        (fun c => isDigit_of_mem_toDigits) listed
      have depths : a.depth = b.depth := by
        rw [← Nat.ofDigitChars_ten_toDigits (n := a.depth), digits, Nat.ofDigitChars_ten_toDigits]
      have params := String.toList_inj.mp names
      obtain ⟨depth, ⟨name, admitted⟩⟩ := a
      obtain ⟨depth', ⟨name', admitted'⟩⟩ := b
      simp_all

theorem Param.name_ne (p : Param) {depth : Nat} (inside : depth ≠ 0) (chosen : String) :
    p.name ≠ depthPrefix depth ++ chosen := by
  intro same
  have marked := hasSubqueryPrefix_depthPrefix inside chosen.toList
  rw [← String.toList_append, ← same, p.admits.2] at marked
  cases marked

end TypedSql
