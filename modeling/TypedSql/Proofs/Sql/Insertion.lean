import TypedSql.Proofs.Sql.Passage

namespace TypedSql

def readListed {α : Type} (item : Lexeme → Option α) : List Lexeme → Option (List α × List Lexeme)
  | x :: .sign ')' :: rest => (item x).map fun a => ([a], rest)
  | x :: .sign ',' :: .sign ' ' :: rest => do
    let a ← item x
    let (more, rest) ← readListed item rest
    some (a :: more, rest)
  | _ => none

theorem readListed_length {α : Type} {item : Lexeme → Option α} {ls rest : List Lexeme}
    {items : List α} (read : readListed item ls = some (items, rest)) :
    rest.length < ls.length := by
  fun_induction readListed item ls generalizing items with
  | case1 x after =>
    obtain ⟨a, -, same⟩ := Option.map_eq_some_iff.mp read
    obtain ⟨-, rfl⟩ := Prod.mk.inj same
    simp only [List.length_cons]
    omega
  | case2 x after ih =>
    obtain ⟨a, -, read⟩ := Option.bind_eq_some_iff.mp read
    obtain ⟨⟨more, left⟩, inner, same⟩ := Option.bind_eq_some_iff.mp read
    obtain ⟨-, rfl⟩ := Prod.mk.inj (Option.some.inj same)
    have shorter := ih inner
    simp only [List.length_cons]
    omega
  | case3 => cases read

def Lexeme.name? : Lexeme → Option String
  | .name n => some n
  | _ => none

def Lexeme.word? : Lexeme → Option String
  | .word w => some (String.ofList w)
  | _ => none

/-- Lists of words in brackets, with commas between them. What follows the last one is left. -/
def readTuples : List Lexeme → Option (List (List String))
  | .sign '(' :: rest =>
    match _found : readListed Lexeme.word? rest with
    | some (tuple, .sign ',' :: .sign ' ' :: more) => (readTuples more).map (tuple :: ·)
    | some (tuple, _) => some [tuple]
    | none => none
  | _ => none
termination_by ls => ls.length
decreasing_by
  have := readListed_length _found
  simp only [List.length_cons] at this ⊢
  omega

/-- What an insertion says: its columns, and what goes into them, row by row. -/
structure Insertion where
  columns : List String
  tuples : List (List String)
  deriving DecidableEq

def insertion? (ls : List Lexeme) : Option Insertion :=
  match ls.dropWhile (· ≠ .sign '(') with
  | .sign '(' :: listed => do
    let (columns, after) ← readListed Lexeme.name? listed
    match after.dropWhile (· ≠ .word "VALUES".toList) with
    | _ :: .sign ' ' :: values => (readTuples values).map fun tuples => ⟨columns, tuples⟩
    | _ => none
  | _ => none

def commaed (parts : List (List Lexeme)) : List Lexeme :=
  [Lexeme.sign ',', .sign ' '].intercalate parts

def bracketed (xs : List Lexeme) : List Lexeme :=
  .sign '(' :: (commaed (xs.map fun x => [x]) ++ [.sign ')'])

def EndsTuples : List Lexeme → Prop
  | .sign ',' :: _ => False
  | _ => True

section Reading
variable {α : Type} {item : Lexeme → Option α} {xs rest : List Lexeme} {items : List α}

theorem readListed_commaed (full : xs ≠ [])
    (each : List.Forall₂ (fun x a => item x = some a) xs items) :
    readListed item (commaed (xs.map fun x => [x]) ++ Lexeme.sign ')' :: rest) =
      some (items, rest) := by
  induction each with
  | nil => exact absurd rfl full
  | @cons x a more as first others ih =>
    cases others with
    | nil => simp [commaed, readListed, first]
    | @cons y b more as second others =>
      have inner := ih (List.cons_ne_nil y more)
      have written : commaed ((x :: y :: more).map fun x => [x]) ++ Lexeme.sign ')' :: rest =
          x :: .sign ',' :: .sign ' ' ::
            (commaed ((y :: more).map fun x => [x]) ++ Lexeme.sign ')' :: rest) := by
        simp [commaed, List.intercalate_cons_cons]
      simp only [written, readListed, first, inner, Option.bind_eq_bind, Option.bind_some]

theorem readTuples_commaed {tuples : List (List Lexeme)} {read : List (List String)}
    (full : tuples ≠ []) (filled : ∀ xs ∈ tuples, xs ≠ []) (ends : EndsTuples rest)
    (each : List.Forall₂ (List.Forall₂ fun x a => Lexeme.word? x = some a) tuples read) :
    readTuples (commaed (tuples.map bracketed) ++ rest) = some read := by
  induction each with
  | nil => exact absurd rfl full
  | @cons xs tuple more others first rest' ih =>
    obtain ⟨some', filled⟩ := List.forall_mem_cons.mp filled
    cases rest' with
    | nil =>
      have written : commaed ([xs].map bracketed) ++ rest =
          .sign '(' :: (commaed (xs.map fun x => [x]) ++ Lexeme.sign ')' :: rest) := by
        simp [commaed, bracketed]
      rw [written, readTuples, readListed_commaed some' first]
      split
      · rename_i further same
        obtain ⟨-, rfl⟩ := Prod.mk.inj (Option.some.inj same)
        exact ends.elim
      · rename_i same
        obtain ⟨rfl, -⟩ := Prod.mk.inj (Option.some.inj same)
        rfl
      · rename_i none
        cases none
    | @cons ys next more others second rest' =>
      have inner := ih (List.cons_ne_nil ys more) filled
      have written : commaed ((xs :: ys :: more).map bracketed) ++ rest =
          .sign '(' :: (commaed (xs.map fun x => [x]) ++ Lexeme.sign ')' :: .sign ',' :: .sign ' ' ::
            (commaed ((ys :: more).map bracketed) ++ rest)) := by
        simp [commaed, bracketed, List.intercalate_cons_cons]
      rw [written, readTuples, readListed_commaed some' first]
      simp only [inner, Option.map_some]

theorem insertion?_eq_some {head middle after columns : List Lexeme} {names : List String}
    {tuples : List (List Lexeme)} {read : List (List String)}
    (headed : .sign '(' ∉ head) (named : columns ≠ [])
    (listed : List.Forall₂ (fun x n => Lexeme.name? x = some n) columns names)
    (between : .word "VALUES".toList ∉ middle) (full : tuples ≠ [])
    (filled : ∀ xs ∈ tuples, xs ≠ []) (ends : EndsTuples after)
    (each : List.Forall₂ (List.Forall₂ fun x a => Lexeme.word? x = some a) tuples read) :
    insertion? (head ++ bracketed columns ++ middle ++
      .word "VALUES".toList :: .sign ' ' :: (commaed (tuples.map bracketed) ++ after)) =
        some ⟨names, read⟩ := by
  have start : (head ++ bracketed columns ++ middle ++
      .word "VALUES".toList :: .sign ' ' :: (commaed (tuples.map bracketed) ++ after)).dropWhile
        (· ≠ .sign '(') = .sign '(' :: (commaed (columns.map fun x => [x]) ++ .sign ')' :: (middle ++
          .word "VALUES".toList :: .sign ' ' :: (commaed (tuples.map bracketed) ++ after))) := by
    have skipped : ∀ x ∈ head, decide (x ≠ .sign '(') = true := by
      intro x member
      simp only [decide_eq_true_eq]
      rintro rfl
      exact headed member
    simp only [List.append_assoc]
    rw [List.dropWhile_append_of_pos skipped]
    simp [bracketed]
  have behind : (middle ++ .word "VALUES".toList :: .sign ' ' ::
      (commaed (tuples.map bracketed) ++ after)).dropWhile (· ≠ .word "VALUES".toList) =
        .word "VALUES".toList :: .sign ' ' :: (commaed (tuples.map bracketed) ++ after) := by
    have skipped : ∀ x ∈ middle, decide (x ≠ .word "VALUES".toList) = true := by
      intro x member
      simp only [decide_eq_true_eq]
      rintro rfl
      exact between member
    have met : ¬decide (Lexeme.word "VALUES".toList ≠ .word "VALUES".toList) = true := by
      rw [decide_eq_true_eq]
      exact not_not_intro rfl
    rw [List.dropWhile_append_of_pos skipped]
    exact List.dropWhile_cons_of_neg met
  rw [insertion?, start]
  simp only [readListed_commaed named listed, behind, readTuples_commaed full filled ends each,
    Option.bind_eq_bind, Option.bind_some, Option.map_some]

end Reading

theorem Sql.lexemes_commaList (spell : Hole → String) (parts : List Sql) :
    (Sql.commaList parts).lexemes spell = commaed (parts.map (Sql.lexemes spell)) := by
  unfold Sql.commaList
  induction parts with
  | nil => rfl
  | cons part rest ih =>
    cases rest with
    | nil => simp [Sql.join, commaed]
    | cons next rest =>
      show Sql.lexemes spell (part ++ sql ", " ++ Sql.join ", " (next :: rest)) = _
      rw [Sql.lexemes_linked (by decide) (by decide), ih]
      simp only [commaed, List.map_cons, List.intercalate_cons_cons, List.append_assoc]
      rfl

end TypedSql
