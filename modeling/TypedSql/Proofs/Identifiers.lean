import Mathlib.Data.List.TakeWhile
import TypedSql.Proofs.Letters
import TypedSql.Proofs.Sql.Hole

namespace TypedSql

def IsWord (name : String) : Prop :=
  ∃ c rest, name.toList = c :: rest ∧ (c.isAlpha = true ∨ c = '_') ∧
    ∀ x ∈ rest, x.isAlphanum = true ∨ x = '_'

def HasDenied (name : String) : Prop := ∃ entry ∈ Forbidden.sequences, entry.1 <:+: name.toList

def HasBlank (name : String) : Prop := ∃ c ∈ name.toList, isBlank c = true

/-- That a connective stands in a name, between spaces and in any letter case. -/
def HasConnective (name : String) : Prop :=
  ∃ word ∈ ["or", "and"], ∃ part, AnyCase word.toList part ∧ ' ' :: part ++ [' '] <:+: name.toList

def IsStatementKeyword (name : String) : Prop :=
  ∃ verb ∈ statementKeywords, AnyCase verb.toList name.toList

def IsDenied (name : String) : Prop := HasDenied name ∨ HasBlank name ∨ IsStatementKeyword name

def HasReservedPrefix (name : String) : Prop :=
  ∃ digits, digits ≠ [] ∧ (∀ d ∈ digits, d.isDigit = true) ∧
    's' :: 'q' :: digits ++ ['_'] <+: name.toList

/-- That a parameter has a good name, but one that is kept for subqueries. -/
def IsReserved (kind : NameKind) (name : String) : Prop :=
  kind = .parameter ∧ IsWord name ∧ ¬ IsStatementKeyword name ∧ HasReservedPrefix name

/-- The language of the gate. -/
def IsIdentifier (kind : NameKind) (name : String) : Prop :=
  IsWord name ∧ ¬ IsStatementKeyword name ∧ (kind = .parameter → ¬ HasReservedPrefix name)

section Forbidden
variable {name : String}

theorem hasDenied_iff :
    HasDenied name ↔
      ∃ entry, (Forbidden.sequences.find? fun entry => occurs entry.1 name.toList) = some entry := by
  rw [← Option.isSome_iff_exists, List.find?_isSome]
  simp only [HasDenied, occurs_iff]

theorem hasBlank_of_occurs {word : List Char} (between : ' ' ∈ word)
    (found : occurs word (asciiLower name.toList) = true) : HasBlank name := by
  have member : ' ' ∈ asciiLower name.toList := (occurs_iff.mp found).subset between
  rcases List.mem_map.mp member with ⟨c, inside, lowered⟩
  refine ⟨c, inside, ?_⟩
  have small := congrArg Char.toNat lowered
  have space : c.toNat = 32 := by
    rw [toNat_toLower] at small
    split at small
    · have other : ' '.toNat = 32 := rfl
      omega
    · exact small
  rw [Char.toNat_inj.mp (show c.toNat = ' '.toNat from space)]
  decide

theorem isStatementKeyword_iff :
    IsStatementKeyword name ↔
      (statementKeywords.any fun verb => verb.toList == asciiLower name.toList) = true := by
  have small : statementKeywords.all (fun verb => verb.toList.all Char.isLower) = true := by decide
  simp only [IsStatementKeyword, List.any_eq_true, beq_iff_eq]
  refine exists_congr fun verb => and_congr_right fun listed => ?_
  have letters := List.all_eq_true.mp (List.all_eq_true.mp small verb listed)
  rw [← asciiLower_eq_iff letters, eq_comm]

theorem Forbidden.find?_eq_none_iff :
    Forbidden.find? name.toList = none ↔ ¬ IsDenied name := by
  have blank : (name.toList.any isBlank) = true ↔ HasBlank name := List.any_eq_true
  rw [Forbidden.find?, IsDenied, hasDenied_iff, isStatementKeyword_iff]
  split
  · rename_i entry found
    simp [found]
  · rename_i none
    simp only [none, reduceCtorEq, exists_false, false_or]
    by_cases connective : (occurs " or ".toList (asciiLower name.toList) ||
        occurs " and ".toList (asciiLower name.toList)) = true
    · have spaced : HasBlank name := by
        rcases Bool.or_eq_true _ _ ▸ connective with found | found
        · exact hasBlank_of_occurs (by decide) found
        · exact hasBlank_of_occurs (by decide) found
      rw [if_pos connective]
      simp [spaced]
    · rw [if_neg connective, ← blank]
      by_cases spaced : name.toList.any isBlank = true
      · simp [spaced]
      · rw [if_neg spaced]
        split <;> simp_all

end Forbidden

section Words
variable {kind : NameKind} {name : String}

theorem checkWord_ok_iff : checkWord kind name = .ok () ↔ IsWord name := by
  constructor
  · intro word
    rcases word_of_checkWord word with ⟨c, rest, spelled, starts, continues⟩
    refine ⟨c, rest, spelled, ?_, fun x member => ?_⟩
    · simpa [isWordStart] using starts
    · simpa [isWordRest] using continues x member
  · rintro ⟨c, rest, spelled, starts, continues⟩
    have first : isWordStart c = true := by simpa [isWordStart] using starts
    have others : rest.all isWordRest = true := by
      refine List.all_eq_true.mpr fun x member => ?_
      simpa [isWordRest] using continues x member
    simp [checkWord, spelled, first, others]

theorem malformed_of_not_isWord (full : name ≠ "") (strange : ¬ IsWord name) :
    ∃ fault, checkWord kind name = .error (.malformed kind name fault) := by
  have failed : checkWord kind name ≠ .ok () := mt checkWord_ok_iff.mp strange
  unfold checkWord at failed ⊢
  split at failed
  · rename_i none
    exact absurd (String.toList_eq_nil_iff.mp none) full
  · split at failed
    · rename_i starts
      exact ⟨.badStart, if_pos starts⟩
    · rename_i starts
      split at failed
      · rename_i continues
        exact ⟨.badCharacter, by rw [if_neg starts, if_pos continues]⟩
      · exact absurd rfl failed

theorem IsWord.isWordRest (word : IsWord name) : ∀ c ∈ name.toList, isWordRest c = true :=
  have checked : checkWord .parameter name = .ok () := checkWord_ok_iff.mpr word
  isWordRest_of_checkWord checked

theorem IsWord.ne_empty (word : IsWord name) : name ≠ "" := by
  rintro rfl
  rcases word with ⟨c, rest, spelled, -⟩
  simp at spelled

theorem IsWord.not_hasDenied (word : IsWord name) : ¬ HasDenied name := by
  rintro ⟨entry, listed, inside⟩
  have strange : Forbidden.sequences.all (fun entry => entry.1.any fun c => !TypedSql.isWordRest c) =
      true := by decide
  have found := List.all_eq_true.mp strange entry listed
  rcases List.any_eq_true.mp found with ⟨c, member, other⟩
  have plain := word.isWordRest c (inside.subset member)
  simp [plain] at other

theorem IsWord.not_hasBlank (word : IsWord name) : ¬ HasBlank name := by
  rintro ⟨c, member, blank⟩
  have plain := isBlank_of_isWordRest (word.isWordRest c member)
  rw [plain] at blank
  cases blank

theorem IsWord.not_hasConnective (word : IsWord name) : ¬ HasConnective name := by
  rintro ⟨connective, -, part, -, inside⟩
  have member : ' ' ∈ name.toList := inside.subset (by simp)
  exact word.not_hasBlank ⟨' ', member, by decide⟩

theorem IsWord.isDenied_iff (word : IsWord name) : IsDenied name ↔ IsStatementKeyword name := by
  simp [IsDenied, word.not_hasDenied, word.not_hasBlank]

theorem hasReservedPrefix_iff : HasReservedPrefix name ↔ hasSubqueryPrefix name.toList = true := by
  constructor
  · rintro ⟨digits, full, each, more, spelled⟩
    rcases digits with - | ⟨d, digits⟩
    · exact absurd rfl full
    · rcases List.forall_mem_cons.mp each with ⟨first, others⟩
      have skipped : (digits ++ '_' :: more).dropWhile Char.isDigit = '_' :: more := by
        rw [List.dropWhile_append_of_pos others, List.dropWhile_cons_of_neg (by decide)]
      rw [← spelled]
      simp [hasSubqueryPrefix, first, skipped]
  · intro marked
    unfold hasSubqueryPrefix at marked
    split at marked
    · rename_i d rest spelled
      rw [Bool.and_eq_true, beq_iff_eq] at marked
      rcases List.head?_eq_some_iff.mp marked.2 with ⟨more, after⟩
      have split := List.takeWhile_append_dropWhile (p := Char.isDigit) (l := rest)
      refine ⟨d :: rest.takeWhile Char.isDigit, by simp, ?_, more, ?_⟩
      · refine List.forall_mem_cons.mpr ⟨marked.1, fun x member => ?_⟩
        exact List.mem_takeWhile_imp member
      · rw [after] at split
        simp [spelled, split]
    · cases marked

theorem checkName_cases (kind : NameKind) (name : String) :
    (name = "" ∧ checkName kind name = .error (.empty kind)) ∨
      (name ≠ "" ∧ IsDenied name ∧
        ∃ found, checkName kind name = .error (.denied kind name found)) ∨
      (name ≠ "" ∧ ¬ IsDenied name ∧ ¬ IsWord name ∧
        ∃ fault, checkName kind name = .error (.malformed kind name fault)) ∨
      (IsReserved kind name ∧ checkName kind name = .error (.reservedPrefix name)) ∨
      (IsIdentifier kind name ∧ checkName kind name = .ok ()) := by
  unfold checkName
  by_cases empty : name.isEmpty = true
  · rw [if_pos empty]
    exact .inl ⟨String.isEmpty_iff.mp empty, rfl⟩
  have full : name ≠ "" := mt String.isEmpty_iff.mpr empty
  rw [if_neg empty]
  apply Or.inr
  cases found : Forbidden.find? name.toList with
  | some entry =>
    have denied : IsDenied name := by
      by_contra none
      rw [Forbidden.find?_eq_none_iff.mpr none] at found
      cases found
    exact .inl ⟨full, denied, entry, rfl⟩
  | none =>
    have allowed : ¬ IsDenied name := Forbidden.find?_eq_none_iff.mp found
    apply Or.inr
    by_cases word : IsWord name
    · have checked : checkWord kind name = .ok () := checkWord_ok_iff.mpr word
      have verbless : ¬ IsStatementKeyword name := mt word.isDenied_iff.mpr allowed
      apply Or.inr
      simp only [checked]
      by_cases reserved : kind = .parameter ∧ hasSubqueryPrefix name.toList = true
      · have marked := hasReservedPrefix_iff.mpr reserved.2
        exact .inl ⟨⟨reserved.1, word, verbless, marked⟩, if_pos reserved⟩
      · refine .inr ⟨⟨word, verbless, fun parameter marked => ?_⟩, if_neg reserved⟩
        exact reserved ⟨parameter, hasReservedPrefix_iff.mp marked⟩
    · have malformed : ∃ fault, checkWord kind name = .error (.malformed kind name fault) :=
        malformed_of_not_isWord full word
      rcases malformed with ⟨fault, failed⟩
      simp only [failed]
      exact .inl ⟨full, allowed, word, fault, rfl⟩

end Words

/-- The gate accepts exactly its language, and each other name is refused for the one reason that
    holds of it. -/
theorem checkName_language (kind : NameKind) (name : String) :
    (checkName kind name = .ok () ↔ IsIdentifier kind name) ∧
      (IsIdentifier kind name → ¬ HasDenied name ∧ ¬ HasConnective name ∧ ¬ HasBlank name) ∧
      (checkName kind name = .error (.empty kind) ↔ name = "") ∧
      ((∃ found, checkName kind name = .error (.denied kind name found)) ↔
        name ≠ "" ∧ IsDenied name) ∧
      (checkName kind name = .error (.reservedPrefix name) ↔ IsReserved kind name) ∧
      ((∃ fault, checkName kind name = .error (.malformed kind name fault)) ↔
        ¬ IsIdentifier kind name ∧ name ≠ "" ∧ ¬ IsDenied name ∧ ¬ IsReserved kind name) := by
  have identifier : IsIdentifier kind name → name ≠ "" ∧ ¬ IsDenied name ∧ ¬ IsReserved kind name := by
    rintro ⟨word, verbless, unreserved⟩
    exact ⟨word.ne_empty, mt word.isDenied_iff.mp verbless, fun reserved =>
      unreserved reserved.1 reserved.2.2.2⟩
  have reserve : IsReserved kind name → name ≠ "" ∧ ¬ IsDenied name := by
    rintro ⟨-, word, verbless, -⟩
    exact ⟨word.ne_empty, mt word.isDenied_iff.mp verbless⟩
  have clean : IsIdentifier kind name → ¬ HasDenied name ∧ ¬ HasConnective name ∧ ¬ HasBlank name :=
    fun named => ⟨named.1.not_hasDenied, named.1.not_hasConnective, named.1.not_hasBlank⟩
  rcases checkName_cases kind name with ⟨rfl, gives⟩ | ⟨full, denied, found, gives⟩ |
    ⟨full, allowed, strange, fault, gives⟩ | ⟨reserved, gives⟩ | ⟨named, gives⟩
  · have unnamed : ¬ IsIdentifier kind "" := fun named => (identifier named).1 rfl
    have unreserved : ¬ IsReserved kind "" := fun reserved => (reserve reserved).1 rfl
    simp [gives, unnamed, unreserved]
  · have unnamed : ¬ IsIdentifier kind name := fun named => (identifier named).2.1 denied
    have unreserved : ¬ IsReserved kind name := fun reserved => (reserve reserved).2 denied
    simp [gives, full, denied, unnamed, unreserved]
  · have unnamed : ¬ IsIdentifier kind name := fun named => strange named.1
    have unreserved : ¬ IsReserved kind name := fun reserved => strange reserved.2.1
    simp [gives, full, allowed, unnamed, unreserved]
  · have unnamed : ¬ IsIdentifier kind name := fun named => (identifier named).2.2 reserved
    simp [gives, reserved, reserve reserved, unnamed]
  · simp [gives, named, identifier named, clean named]

end TypedSql
