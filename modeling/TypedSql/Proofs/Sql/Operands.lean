import Mathlib.Data.List.DropRight
import TypedSql.Proofs.Render.Passage
import TypedSql.Proofs.Sql.Combination
import TypedSql.Proofs.Sql.Outline

namespace TypedSql

def setWords : List (List Char × SetOperation) :=
  [(['U', 'N', 'I', 'O', 'N'], .union),
    (['I', 'N', 'T', 'E', 'R', 'S', 'E', 'C', 'T'], .intersect),
    (['E', 'X', 'C', 'E', 'P', 'T'], .except)]

def Lexeme.setOperation? : Lexeme → Option SetOperation
  | .word w => (setWords.find? fun entry => entry.1 == w.map Char.toUpper).map Prod.snd
  | _ => none

def SetOperation.withAll : SetOperation → SetOperation
  | .union => .unionAll
  | .intersect => .intersectAll
  | .except => .exceptAll
  | op => op

/-- An ALL behind the word of a set operation belongs to the operation. -/
def settleAll (op : SetOperation) : List Lexeme → SetOperation × List Lexeme
  | .word w :: rest =>
    if w.map Char.toUpper = "ALL".toList then (op.withAll, rest) else (op, .word w :: rest)
  | ls => (op, ls)

/-- A text cut at the set operations outside of brackets, from where some brackets are open. -/
def combination (p : Nat) : List Lexeme → Combination (List Lexeme)
  | [] => ⟨[], []⟩
  | x :: rest =>
    let after := combination (x.level p) rest
    match if p = 0 then x.setOperation? else none with
    | some op => ⟨[], settleAll op after.first :: after.rest⟩
    | none => ⟨x :: after.first, after.rest⟩

def SetOperation.words : SetOperation → List Lexeme
  | .union => [.word "UNION".toList]
  | .unionAll => [.word "UNION".toList, .word "ALL".toList]
  | .intersect => [.word "INTERSECT".toList]
  | .intersectAll => [.word "INTERSECT".toList, .word "ALL".toList]
  | .except => [.word "EXCEPT".toList]
  | .exceptAll => [.word "EXCEPT".toList, .word "ALL".toList]

def visible (ls : List Lexeme) : List Lexeme := ls.filter (· != .sign ' ')

section Cutting
variable {p q : Nat} {ls rest : List Lexeme} {op : SetOperation}

@[simp] theorem visible_append : visible (ls ++ rest) = visible ls ++ visible rest :=
  List.filter_append ..

theorem mem_visible {x : Lexeme} (member : x ∈ visible ls) : x ∈ ls := (List.mem_filter.mp member).1

theorem visible_display (op : SetOperation) :
    visible ((" " ++ op.display ++ " ").toList.foldr gather []) = op.words := by
  cases op <;> decide

theorem skim_visible : (skim p (visible ls)).2 = (skim p ls).2 := by
  induction ls generalizing p with
  | nil => rfl
  | cons x ls ih =>
    by_cases blank : x = .sign ' '
    · subst blank
      have hidden : visible (.sign ' ' :: ls) = visible ls := by simp [visible]
      rw [hidden, ih]
      rfl
    · have shown : visible (x :: ls) = x :: visible ls := by simp [visible, blank]
      rw [shown]
      exact ih

theorem level_of_nest (nested : nest (ls.filterMap Lexeme.sign?) p = some q) :
    (skim p ls).2 = q := by
  induction ls generalizing p with
  | nil => simpa [skim, nest] using nested
  | cons x ls ih =>
    have stepped : nest (ls.filterMap Lexeme.sign?) (x.level p) = some q := by
      cases x with
      | sign c =>
        have nested : nest (c :: ls.filterMap Lexeme.sign?) p = some q := nested
        by_cases opening : c = '('
        · subst opening
          exact nested
        · by_cases closing : c = ')'
          · subst closing
            cases p with
            | zero => cases nested
            | succ p => exact nested
          · have level : (Lexeme.sign c).level p = p := by
              unfold Lexeme.level
              split <;> simp_all
            rw [nest] at nested
            · rwa [level]
            · simpa using opening
            · simpa using closing
      | _ => exact nested
    exact ih stepped

theorem combination_append (whole : ∀ x ∈ ls, x.setOperation? = none) :
    combination p (ls ++ rest) =
      ⟨ls ++ (combination (skim p ls).2 rest).first, (combination (skim p ls).2 rest).rest⟩ := by
  induction ls generalizing p with
  | nil => rfl
  | cons x ls ih =>
    obtain ⟨first, others⟩ := List.forall_mem_cons.mp whole
    have none : (if p = 0 then x.setOperation? else none) = none := by simp [first]
    rw [List.cons_append, combination, none, ih others]
    rfl

theorem combination_of_whole (whole : ∀ x ∈ ls, x.setOperation? = none) :
    combination p ls = ⟨ls, []⟩ := by
  have alone : combination p (ls ++ []) = _ := combination_append whole
  rwa [List.append_nil, combination, List.append_nil] at alone

theorem combination_words (other : settleAll op (combination 0 rest).first =
      (op, (combination 0 rest).first)) :
    combination 0 (op.words ++ rest) =
      ⟨[], (op, (combination 0 rest).first) :: (combination 0 rest).rest⟩ := by
  cases op with
  | union | intersect | except => rw [← other]; rfl
  | unionAll | intersectAll | exceptAll => rfl

end Cutting

def endsNone (w : List Char) : Bool :=
  w.length ≤ 1 || setWords.all fun entry => !(w.map Char.toUpper).isSuffixOf entry.1

def isForeign (w : List Char) : Bool :=
  setWords.all fun entry => !(w.map Char.toUpper).isSuffixOf entry.1 &&
    !(w.map Char.toUpper).isSuffixOf entry.1.dropLast

def isOther (w : List Char) : Bool :=
  setWords.all fun entry => w.map Char.toUpper != entry.1 && w.map Char.toUpper != entry.1.dropLast

def firstWord : List Lexeme → List Char
  | .word w :: _ => w
  | _ => []

/-- That a text is not cut, also with more text before it that may run into its first word. -/
structure Whole (ls : List Lexeme) : Prop where
  uncut : ∀ x ∈ ls, x.setOperation? = none
  start : endsNone (firstWord ls) = true

/-- A text that leaves whole what it is put in front of. -/
def KeepsWhole (cs : List Char) : Prop := ∀ ls, Whole ls → Whole (cs.foldr gather ls)

def keepsWhole (cs : List Char) : Bool :=
  let front := (cs.rdropWhile isInert).foldr gather []
  let last := cs.rtakeWhile isInert
  if cs.rdropWhile isInert = [] then last.isEmpty || isForeign last
  else front.all (fun x => x.setOperation?.isNone) && endsNone (firstWord front) && isOther last

section Words
variable {w t cs rest : List Char} {ls : List Lexeme}

@[simp] theorem firstWord_word : firstWord (.word w :: ls) = w := rfl

theorem firstWord_append (full : ls ≠ []) (after : List Lexeme) :
    firstWord (ls ++ after) = firstWord ls := by
  cases ls with
  | nil => exact absurd rfl full
  | cons x ls => cases x <;> rfl

theorem setOperation?_word :
    (Lexeme.word w).setOperation? = none ↔ ∀ entry ∈ setWords, w.map Char.toUpper ≠ entry.1 := by
  simp only [Lexeme.setOperation?, Option.map_eq_none_iff, List.find?_eq_none, beq_iff_eq]
  exact forall₂_congr fun _ _ => ne_comm

theorem short_of_suffix {entry : List Char × SetOperation} (listed : entry ∈ setWords)
    (ends : endsNone w = true) (suffix : w.map Char.toUpper <:+ entry.1) :
    w = [] ∨ ∃ c, w = [c] := by
  have short : w.length ≤ 1 := by
    simp only [endsNone, Bool.or_eq_true, decide_eq_true_eq, List.all_eq_true,
      Bool.not_eq_true'] at ends
    refine ends.resolve_right fun none => ?_
    have met := List.isSuffixOf_iff_suffix.mpr suffix
    rw [none entry listed] at met
    cases met
  rcases w with - | ⟨c, - | ⟨d, w⟩⟩
  · exact .inl rfl
  · exact .inr ⟨c, rfl⟩
  · simp at short

theorem not_suffix_of_foreign (foreign : isForeign t = true) (ends : endsNone w = true)
    {entry : List Char × SetOperation} (listed : entry ∈ setWords) :
    ¬ (t ++ w).map Char.toUpper <:+ entry.1 := by
  intro suffix
  have none := List.all_eq_true.mp foreign entry listed
  simp only [Bool.and_eq_true, Bool.not_eq_true'] at none
  rw [List.map_append] at suffix
  rcases short_of_suffix listed ends ((List.suffix_append _ _).trans suffix) with rfl | ⟨c, rfl⟩
  · have met := List.isSuffixOf_iff_suffix.mpr suffix
    rw [List.map_nil, List.append_nil, none.1] at met
    cases met
  · obtain ⟨front, whole⟩ := suffix
    have met : t.map Char.toUpper <:+ entry.1.dropLast :=
      ⟨front, by rw [← whole]; simp [← List.append_assoc]⟩
    have met := List.isSuffixOf_iff_suffix.mpr met
    rw [none.2] at met
    cases met

theorem ne_of_other (other : isOther t = true) (ends : endsNone w = true)
    {entry : List Char × SetOperation} (listed : entry ∈ setWords) :
    (t ++ w).map Char.toUpper ≠ entry.1 := by
  intro same
  have apart := List.all_eq_true.mp other entry listed
  simp only [Bool.and_eq_true, bne_iff_ne] at apart
  rw [List.map_append] at same
  rcases short_of_suffix listed ends (same ▸ List.suffix_append _ _) with rfl | ⟨c, rfl⟩
  · exact apart.1 (by simpa using same)
  · exact apart.2 (by rw [← same]; simp)

theorem foldr_gather_inert (ls : List Lexeme) (inert : ∀ c ∈ t, isInert c = true) (full : t ≠ []) :
    ∃ after, t.foldr gather ls = .word (t ++ firstWord ls) :: after ∧ ∀ x ∈ after, x ∈ ls := by
  induction t with
  | nil => exact absurd rfl full
  | cons c t ih =>
    obtain ⟨here, others⟩ := List.forall_mem_cons.mp inert
    cases t with
    | nil =>
      rcases ls with - | ⟨x, ls⟩
      · exact ⟨[], by simp [gather, here, firstWord], by simp⟩
      · cases x with
        | word w => exact ⟨ls, by simp [gather, here], fun x => List.mem_cons_of_mem _⟩
        | _ => exact ⟨_, by simp [gather, here, firstWord], fun x inside => inside⟩
    | cons d t =>
      obtain ⟨after, gathered, inside⟩ := ih others (by simp)
      exact ⟨after, by rw [List.foldr_cons, gathered]; simp [gather, here], inside⟩

theorem Whole.nil : Whole [] := ⟨by simp, by decide⟩

namespace KeepsWhole

theorem nil : KeepsWhole [] := fun _ whole => whole

theorem append (first : KeepsWhole cs) (second : KeepsWhole rest) : KeepsWhole (cs ++ rest) := by
  intro ls whole
  rw [List.foldr_append]
  exact first _ (second ls whole)

theorem foreign (inert : ∀ c ∈ t, isInert c = true) (foreign : isForeign t = true) :
    KeepsWhole t := by
  intro ls whole
  have full : t ≠ [] := by rintro rfl; revert foreign; decide
  obtain ⟨after, gathered, inside⟩ := foldr_gather_inert ls inert full
  have apart := @not_suffix_of_foreign _ _ foreign whole.start
  rw [gathered]
  refine ⟨List.forall_mem_cons.mpr ⟨setOperation?_word.mpr fun entry listed same => ?_,
    fun x member => whole.uncut x (inside x member)⟩, ?_⟩
  · exact apart listed (same ▸ List.suffix_refl _)
  · simp only [endsNone, firstWord_word, Bool.or_eq_true, List.all_eq_true, Bool.not_eq_true']
    refine .inr fun entry listed => ?_
    by_contra met
    exact apart listed (List.isSuffixOf_iff_suffix.mp (by simpa using met))

theorem closed {c : Char} (sign : isInert c = false)
    (front : Whole ((cs ++ [c]).foldr gather [])) (inert : ∀ c ∈ t, isInert c = true)
    (other : isOther t = true) : KeepsWhole ((cs ++ [c]) ++ t) := by
  intro ls whole
  have behind : ∀ x ∈ t.foldr gather ls, x.setOperation? = none := by
    by_cases full : t = []
    · rw [full]
      exact whole.uncut
    · obtain ⟨after, gathered, inside⟩ := foldr_gather_inert ls inert full
      rw [gathered]
      exact List.forall_mem_cons.mpr
        ⟨setOperation?_word.mpr fun entry listed => ne_of_other other whole.start listed,
          fun x member => whole.uncut x (inside x member)⟩
  have some : (cs ++ [c]).foldr gather [] ≠ [] := by
    intro none
    have short := congrArg (List.flatMap (Lexeme.write .postgres)) none
    rw [flatMap_write_foldr] at short
    simp at short
  rw [List.foldr_append, foldr_gather_closed sign]
  refine ⟨List.forall_mem_append.mpr ⟨front.uncut, behind⟩, ?_⟩
  rw [firstWord_append some]
  exact front.start

theorem of_check (checked : keepsWhole cs = true) : KeepsWhole cs := by
  have inert : ∀ c ∈ cs.rtakeWhile isInert, isInert c = true := fun c => List.mem_rtakeWhile_imp
  have split : cs.rdropWhile isInert ++ cs.rtakeWhile isInert = cs :=
    List.rdropWhile_append_rtakeWhile
  rw [← split]
  unfold keepsWhole at checked
  split at checked
  · rename_i none
    rw [none, List.nil_append]
    rcases Bool.or_eq_true _ _ ▸ checked with empty | foreign
    · rw [List.isEmpty_iff.mp empty]
      exact nil
    · exact .foreign inert foreign
  · rename_i some
    simp only [Bool.and_eq_true, List.all_eq_true, Option.isNone_iff_eq_none] at checked
    obtain ⟨⟨uncut, start⟩, other⟩ := checked
    have sign := List.rdropWhile_last_not isInert cs some
    have ends := List.dropLast_append_getLast some
    rw [← ends] at uncut start ⊢
    exact .closed (by simpa using sign) ⟨uncut, start⟩ inert other

end KeepsWhole

theorem isForeign_of_mem {c : Char} (member : c ∈ w) (other : c.toUpper.isAlpha = false) :
    isForeign w = true := by
  have letters : setWords.all (fun entry => entry.1.all Char.isAlpha) = true := by decide
  refine List.all_eq_true.mpr fun entry listed => ?_
  have spelled := List.all_eq_true.mp (List.all_eq_true.mp letters entry listed)
  have apart : ¬ w.map Char.toUpper <:+ entry.1 := fun suffix => by
    have letter := spelled _ (suffix.mem (List.mem_map_of_mem member))
    rw [other] at letter
    cases letter
  have shorter : ¬ w.map Char.toUpper <:+ entry.1.dropLast := fun suffix => by
    have inside := suffix.mem (List.mem_map_of_mem member)
    have letter := spelled _ ((List.dropLast_prefix entry.1).mem inside)
    rw [other] at letter
    cases letter
  simp [List.isSuffixOf_iff_suffix, ← Bool.not_eq_true, apart, shorter]

theorem KeepsWhole.number (n : Nat) : KeepsWhole (toString n).toList := by
  obtain ⟨c, member⟩ := List.exists_mem_of_ne_nil _ (toList_toString_ne_nil n)
  have other := digit_all (fun c => !c.toUpper.isAlpha) (by decide) (isDigit_toString n c member)
  exact .foreign (isInert_toString n) (isForeign_of_mem member (by simpa using other))

theorem KeepsWhole.spelled {spell : Hole → String} (marked : SpelledMarked spell) (use : Hole) :
    KeepsWhole (spell use).toList := by
  obtain ⟨mark, word, spelled, sigil⟩ := marked.2 use
  have member : mark ∈ (spell use).toList := by simp [spelled]
  exact .foreign (marked.1 use) (isForeign_of_mem member (isAlpha_toUpper_of_sigil sigil))

end Words

/-- That the fixed texts of a part leave whole what they are put in front of. -/
def Sql.KeepsWhole (s : Sql) : Prop := ∀ t, .text t ∈ s → TypedSql.KeepsWhole t.toList

/-- A part whose texts do is not cut. Names and literals are quoted, placeholders are marked. -/
theorem Sql.KeepsWhole.whole {spell : Hole → String} (marked : SpelledMarked spell) {s : Sql}
    (keeps : s.KeepsWhole) : Whole (s.lexemes spell) := by
  induction s with
  | nil => exact .nil
  | cons p rest ih =>
    have others := ih fun t member => keeps t (List.mem_cons_of_mem _ member)
    cases p with
    | text t =>
      rw [lexemes_text_cons]
      exact keeps t List.mem_cons_self _ others
    | name kind n => exact ⟨List.forall_mem_cons.mpr ⟨rfl, others.uncut⟩, rfl⟩
    | literal l => exact ⟨List.forall_mem_cons.mpr ⟨rfl, others.uncut⟩, rfl⟩
    | hole use =>
      rw [lexemes_hole_cons]
      exact TypedSql.KeepsWhole.spelled marked use _ others

namespace Sql.KeepsWhole
variable {s t : Sql} {fixed pre mid post : String}

theorem nil : KeepsWhole [] := by simp [KeepsWhole]

theorem append (first : s.KeepsWhole) (second : t.KeepsWhole) : (s ++ t).KeepsWhole := by
  intro text member
  rcases List.mem_append.mp member with inside | inside
  · exact first text inside
  · exact second text inside

theorem of_text (keeps : TypedSql.KeepsWhole fixed.toList) : (sql fixed).KeepsWhole := by
  intro text member
  obtain rfl : text = fixed := by simpa [sql] using member
  exact keeps

theorem text (checked : keepsWhole fixed.toList = true) : (sql fixed).KeepsWhole :=
  of_text (.of_check checked)

theorem textless (none : s.all (fun p => p matches .name .. | .literal _ | .hole _) = true) :
    s.KeepsWhole := by
  intro text member
  simpa using List.all_eq_true.mp none _ member

theorem concat (first : (sql pre).KeepsWhole) (second : (sql post).KeepsWhole) :
    (sql (pre ++ post)).KeepsWhole := by
  refine of_text ?_
  rw [String.toList_append]
  exact (first pre (by simp [sql])).append (second post (by simp [sql]))

theorem enclosed (opening : keepsWhole pre.toList = true) (inner : s.KeepsWhole)
    (closing : keepsWhole post.toList = true) : (sql pre ++ s ++ sql post).KeepsWhole :=
  ((text opening).append inner).append (text closing)

theorem linked (first : s.KeepsWhole) (linking : keepsWhole mid.toList = true)
    (second : t.KeepsWhole) : (s ++ sql mid ++ t).KeepsWhole :=
  (first.append (text linking)).append second

theorem flatten {parts : List Sql} (each : ∀ part ∈ parts, part.KeepsWhole) :
    KeepsWhole parts.flatten := by
  intro text member
  obtain ⟨part, inside, within⟩ := List.mem_flatten.mp member
  exact each part inside text within

theorem join (linking : keepsWhole mid.toList = true) {parts : List Sql}
    (each : ∀ part ∈ parts, part.KeepsWhole) : (Sql.join mid parts).KeepsWhole := by
  induction parts with
  | nil => exact nil
  | cons part rest ih =>
    obtain ⟨first, others⟩ := List.forall_mem_cons.mp each
    cases rest with
    | nil => exact first
    | cons next rest => exact first.linked linking (ih others)

theorem commaList {parts : List Sql} (each : ∀ part ∈ parts, part.KeepsWhole) :
    (Sql.commaList parts).KeepsWhole := join (by decide) each

end Sql.KeepsWhole
end TypedSql
