import TypedSql.Proofs.Sql.Operands

namespace TypedSql

def Lexeme.reads (word : String) : Lexeme → Bool
  | .word w => w.map Char.toUpper == word.toList
  | _ => false

def still (stop : Lexeme → Bool) (p : Nat) : List Lexeme → Option Nat
  | [] => some p
  | x :: rest =>
    if p = 0 ∧ (stop x = true ∨ x = .sign ')') then none else still stop (x.level p) rest

/-- A text cut outside of brackets: what comes before the first cut, and what follows each. -/
def pieces {κ : Type} (key : Lexeme → Option κ) (p : Nat) :
    List Lexeme → List Lexeme × List (κ × List Lexeme)
  | [] => ([], [])
  | x :: rest =>
    let after := pieces key (x.level p) rest
    match if p = 0 then key x else none with
    | some k => ([], (k, after.1) :: after.2)
    | none => (x :: after.1, after.2)

def inside (p : Nat) : List Lexeme → List Lexeme
  | [] => []
  | x :: rest => if p = 0 ∧ x = .sign ')' then [] else x :: inside (x.level p) rest

def selects (ls : List Lexeme) : Bool := ls.head?.any (Lexeme.reads "SELECT")

def nestedQueries : List Lexeme → List (List Lexeme)
  | [] => []
  | x :: rest =>
    if x = .sign '(' ∧ selects rest = true then inside 0 rest :: nestedQueries rest
    else nestedQueries rest

inductive QueryWord where
  | select | source | combine | order | offset | fetch
  deriving DecidableEq

def queryWords : List (String × QueryWord) :=
  [("SELECT", .select), ("FROM", .source), ("UNION", .combine), ("INTERSECT", .combine),
    ("EXCEPT", .combine), ("ORDER", .order), ("OFFSET", .offset), ("FETCH", .fetch)]

def Lexeme.queryWord? (x : Lexeme) : Option QueryWord :=
  (queryWords.find? fun entry => x.reads entry.1).map Prod.snd

def Lexeme.isQueryWord (x : Lexeme) : Bool := x.queryWord?.isSome

def QueryWord.isOperand : QueryWord → Bool
  | .select | .source | .combine => true
  | _ => false

def Lexeme.key? (key : Lexeme → Bool) (x : Lexeme) : Option Unit :=
  if key x then some () else none

def entries (ls : List Lexeme) : List (List Lexeme) :=
  let cut := pieces (Lexeme.key? (· == .sign ',')) 0 ls
  cut.1 :: cut.2.map Prod.snd

/-- What an entry of a selection goes by: what it computes, and its alias. -/
def known (entry : List Lexeme) : List (List Lexeme) :=
  let cut := pieces (Lexeme.key? (Lexeme.reads "AS")) 0 entry
  cut.1 :: cut.2.map Prod.snd

def isDistinct (first : List Lexeme) : Bool := first.head?.any (Lexeme.reads "DISTINCT")

def selectedIn (first : List Lexeme) : List (List Lexeme) :=
  (entries (if isDistinct first then first.tail else first)).flatMap known

def Lexeme.isDirection (x : Lexeme) : Bool := x.reads "ASC" || x.reads "DESC"

def undirected (ls : List Lexeme) : List Lexeme := (pieces (Lexeme.key? Lexeme.isDirection) 0 ls).1

def orderItems : List Lexeme → List (List Lexeme)
  | [] => []
  | by_ :: rest => if by_.reads "BY" then (entries rest).map undirected else []

def rowCount? : List Lexeme → Option Nat
  | [next, .word n, rows, only] =>
    if next.reads "NEXT" && n.all Char.isDigit && rows.reads "ROWS" && only.reads "ONLY" then
      some (Nat.ofDigitChars 10 n 0)
    else none
  | _ => none

/-- The text of a selection or of several that are combined, as far as the rules go. -/
structure Page where
  distinct : Bool
  /-- What the first operand selects. -/
  selected : List (List Lexeme)
  combined : Bool
  /-- What follows the last operand. -/
  tail : List (QueryWord × List Lexeme)

def page (ls : List Lexeme) : Page :=
  let clauses := (pieces Lexeme.queryWord? 0 ls).2
  let first := clauses.head?.elim [] Prod.snd
  { distinct := isDistinct first
    selected := selectedIn first
    combined := clauses.any fun clause => clause.1 == .combine
    tail := clauses.dropWhile fun clause => clause.1.isOperand }

def noOrder : List Lexeme :=
  [.sign '(', .word "SELECT".toList, .word "NULL".toList, .sign ')']

def isColumn : List Lexeme → Bool
  | [.name _] | [_, .sign '.', .name _] => true
  | _ => false

/-- That something is in the select list, where `*` stands for all columns. -/
def Page.Lists (page : Page) (item : List Lexeme) : Prop :=
  item ≠ noOrder ∧
    (item ∈ page.selected ∨ page.selected = [[.sign '*']] ∧ isColumn item = true)

/-- T-SQL's rules. -/
structure Page.Admitted (nested : Bool) (page : Page) : Prop where
  /-- OFFSET follows ORDER BY directly, and FETCH NEXT follows OFFSET. -/
  placed : page.tail.map Prod.fst ∈ [[], [.order], [.order, .offset], [.order, .offset, .fetch]]
  /-- At least one row is fetched. -/
  counted : ∀ count, (.fetch, count) ∈ page.tail → ∃ n, rowCount? count = some n ∧ 1 ≤ n
  /-- Distinct rows, and those of combined selections, are ordered by what is selected. -/
  listed : page.distinct = true ∨ page.combined = true →
    ∀ order, (.order, order) ∈ page.tail → ∀ item ∈ orderItems order, page.Lists item
  /-- A query in brackets is ordered only together with OFFSET. -/
  offset : nested = true → ∀ order, (.order, order) ∈ page.tail →
    ∃ start, (.offset, start) ∈ page.tail

/-- That the rules hold of a statement's text, and of all queries in brackets in it. -/
structure Admitted (ls : List Lexeme) : Prop where
  whole : selects ls = true → (page ls).Admitted false
  nested : ∀ inner ∈ nestedQueries ls, (page inner).Admitted true

def isSeam (x : Lexeme) : Bool := x.isQueryWord || x == .sign ','

def isBreak (x : Lexeme) : Bool :=
  isSeam x || x.reads "AS" || x.isDirection || x.reads "DISTINCT"

def noStop (_ : Lexeme) : Bool := false

section Stillness
variable {stop stop' : Lexeme → Bool} {p q k : Nat} {x : Lexeme} {ls rest : List Lexeme}

theorem still_append :
    still stop p (ls ++ rest) = (still stop p ls).bind fun q => still stop q rest := by
  induction ls generalizing p with
  | nil => rfl
  | cons x ls ih =>
    rw [List.cons_append, still, still]
    split
    · rfl
    · exact ih

theorem still_cons_eq_some :
    still stop p (x :: ls) = some q ↔
      ¬(p = 0 ∧ (stop x = true ∨ x = .sign ')')) ∧ still stop (x.level p) ls = some q := by
  rw [still]
  split <;> simp_all

theorem level_add (within : ¬(p = 0 ∧ x = .sign ')')) : x.level (p + k) = x.level p + k := by
  by_cases opening : x = .sign '('
  · subst opening
    exact Nat.add_right_comm p k 1
  · by_cases closing : x = .sign ')'
    · subst closing
      have some : p ≠ 0 := fun none => within ⟨none, rfl⟩
      show p + k - 1 = p - 1 + k
      omega
    · have same (n : ℕ) : x.level n = n := by
        unfold Lexeme.level
        split <;> simp_all
      rw [same, same]

theorem still_inside (settles : still stop p ls = some q) (k : Nat) :
    still stop' (p + (k + 1)) ls = some (q + (k + 1)) := by
  induction ls generalizing p with
  | nil =>
    cases settles
    rfl
  | cons x ls ih =>
    obtain ⟨within, settles⟩ := still_cons_eq_some.mp settles
    refine still_cons_eq_some.mpr ⟨fun out => by omega, ?_⟩
    rw [level_add fun closing => within ⟨closing.1, .inr closing.2⟩]
    exact ih settles

theorem still_mono (fewer : ∀ x, stop' x = true → stop x = true)
    (settles : still stop p ls = some q) : still stop' p ls = some q := by
  induction ls generalizing p with
  | nil => exact settles
  | cons x ls ih =>
    obtain ⟨within, settles⟩ := still_cons_eq_some.mp settles
    refine still_cons_eq_some.mpr ⟨fun out => within ⟨out.1, ?_⟩, ih settles⟩
    exact out.2.imp_left (fewer x)

theorem still_bracketed (spares : stop' (.sign '(') = false) (settles : still stop 0 ls = some 0) :
    still stop' 0 (.sign '(' :: (ls ++ [Lexeme.sign ')'])) = some 0 := by
  have inner : still stop' (0 + (0 + 1)) ls = some (0 + (0 + 1)) := still_inside settles 0
  refine still_cons_eq_some.mpr ⟨by simp [spares], ?_⟩
  rw [still_append]
  exact Option.bind_eq_some_iff.mpr ⟨_, inner, rfl⟩

theorem still_of_unbracketed
    (each : ∀ x ∈ ls, stop x = false ∧ x ≠ .sign '(' ∧ x ≠ .sign ')') : still stop p ls = some p := by
  induction ls generalizing p with
  | nil => rfl
  | cons x ls ih =>
    obtain ⟨⟨spared, opening, closing⟩, others⟩ := List.forall_mem_cons.mp each
    have level : x.level p = p := by
      unfold Lexeme.level
      split <;> simp_all
    exact still_cons_eq_some.mpr ⟨by simp [spared, closing], by rw [level, ih others]⟩

theorem still_of_bare (spares : ∀ x : Lexeme, x.isBare = true → stop x = false)
    (bare : ∀ x ∈ ls, x.isBare = true) : still stop p ls = some p := by
  refine still_of_unbracketed fun x member => ⟨spares x (bare x member), ?_⟩
  constructor <;> rintro rfl <;> cases bare _ member

end Stillness

section Cutting
variable {κ : Type} {key : Lexeme → Option κ} {stop : Lexeme → Bool} {p q : Nat} {x : Lexeme}
  {ls rest : List Lexeme}

theorem pieces_append (uncut : ∀ x, stop x = false → key x = none)
    (settles : still stop p ls = some q) :
    pieces key p (ls ++ rest) = (ls ++ (pieces key q rest).1, (pieces key q rest).2) := by
  induction ls generalizing p with
  | nil =>
    cases settles
    rfl
  | cons x ls ih =>
    obtain ⟨within, settles⟩ := still_cons_eq_some.mp settles
    have none : (if p = 0 then key x else none) = none := by
      split
      · rename_i out
        refine uncut x ?_
        by_contra stopped
        exact within ⟨out, .inl (by simpa using stopped)⟩
      · rfl
    rw [List.cons_append, pieces, none, ih settles]
    rfl

theorem pieces_of_still (uncut : ∀ x, stop x = false → key x = none)
    (settles : still stop p ls = some q) : pieces key p ls = (ls, []) := by
  have alone : pieces key p (ls ++ []) = _ := pieces_append uncut settles
  rwa [List.append_nil, pieces, List.append_nil] at alone

theorem pieces_key {k : κ} (cut : key x = some k) :
    pieces key 0 (x :: rest) = ([], (k, (pieces key (x.level 0) rest).1) ::
      (pieces key (x.level 0) rest).2) := by
  simp [pieces, cut]

theorem inside_append (settles : still stop p ls = some q) :
    inside p (ls ++ rest) = ls ++ inside q rest := by
  induction ls generalizing p with
  | nil =>
    cases settles
    rfl
  | cons x ls ih =>
    obtain ⟨within, settles⟩ := still_cons_eq_some.mp settles
    rw [List.cons_append, inside, if_neg fun closing => within ⟨closing.1, .inr closing.2⟩, ih settles]
    rfl

theorem inside_enclosed (settles : still stop 0 ls = some 0) :
    inside 0 (ls ++ Lexeme.sign ')' :: rest) = ls := by
  rw [inside_append settles, inside, if_pos ⟨rfl, rfl⟩, List.append_nil]

theorem inside_of_closed {k : Nat} (settles : still stop (k + (p + 1)) ls = some q) (closes : q ≤ p) :
    inside k (ls ++ rest) = inside k ls := by
  induction ls generalizing k with
  | nil =>
    have same : k + (p + 1) = q := by simpa [still] using settles
    omega
  | cons x ls ih =>
    obtain ⟨-, settles⟩ := still_cons_eq_some.mp settles
    rw [List.cons_append, inside, inside]
    by_cases closing : k = 0 ∧ x = .sign ')'
    · rw [if_pos closing, if_pos closing]
    · rw [level_add closing] at settles
      rw [if_neg closing, if_neg closing, ih settles]

end Cutting

section Entries
variable {x : Lexeme} {ls : List Lexeme} {parts : List (List Lexeme)}

theorem entries_intercalate (full : parts ≠ [])
    (each : ∀ part ∈ parts, still isSeam 0 part = some 0) :
    entries ([Lexeme.sign ','].intercalate parts) = parts := by
  have uncut (x : Lexeme) (other : isSeam x = false) :
      Lexeme.key? (· == .sign ',') x = none := by
    simp only [isSeam, Bool.or_eq_false_iff] at other
    rw [Lexeme.key?, other.2]
    rfl
  induction parts with
  | nil => exact absurd rfl full
  | cons part rest ih =>
    obtain ⟨first, others⟩ := List.forall_mem_cons.mp each
    cases rest with
    | nil => rw [List.intercalate_singleton, entries, pieces_of_still uncut first]; rfl
    | cons next rest =>
      have further := ih (by simp) others
      rw [entries] at further ⊢
      rw [List.intercalate_cons_cons, List.append_assoc, pieces_append uncut first,
        List.singleton_append, pieces_key (k := ()) (by decide)]
      simpa [Lexeme.level] using further

theorem undirected_append (settles : still isBreak 0 ls = some 0) (directs : x.isDirection = true) :
    undirected (ls ++ [x]) = ls := by
  have uncut (x : Lexeme) (other : isBreak x = false) :
      Lexeme.key? Lexeme.isDirection x = none := by
    simp only [isBreak, Bool.or_eq_false_iff] at other
    rw [Lexeme.key?, other.1.2]
    rfl
  have cut : Lexeme.key? Lexeme.isDirection x = some () := by
    rw [Lexeme.key?, directs]
    rfl
  rw [undirected, pieces_append uncut settles, pieces_key cut, List.append_nil]

theorem key?_as {x : Lexeme} (other : isBreak x = false) :
    Lexeme.key? (Lexeme.reads "AS") x = none := by
  simp only [isBreak, Bool.or_eq_false_iff] at other
  rw [Lexeme.key?, other.1.1.2]
  rfl

theorem known_plain (settles : still isBreak 0 ls = some 0) : known ls = [ls] := by
  rw [known, pieces_of_still (fun x => key?_as) settles]
  rfl

theorem known_named (settles : still isBreak 0 ls = some 0) (n : String) :
    known (ls ++ [Lexeme.word "AS".toList, .name n]) = [ls, [.name n]] := by
  rw [known, pieces_append (fun x => key?_as) settles, pieces_key (k := ()) (by decide)]
  simp [pieces, Lexeme.level, Lexeme.key?, Lexeme.reads]

end Entries

/-- That a text falls into clauses, each with what follows its keyword. -/
inductive FallsInto : List Lexeme → List (QueryWord × List Lexeme) → Prop where
  | nil : FallsInto [] []
  | cons {x word ls rest clauses} (keyword : x.queryWord? = some word)
      (settles : still Lexeme.isQueryWord 0 ls = some 0) (more : FallsInto rest clauses) :
      FallsInto (x :: (ls ++ rest)) ((word, ls) :: clauses)

namespace FallsInto
variable {ls rest : List Lexeme} {clauses more : List (QueryWord × List Lexeme)}

theorem append (first : FallsInto ls clauses) (second : FallsInto rest more) :
    FallsInto (ls ++ rest) (clauses ++ more) := by
  induction first with
  | nil => exact second
  | cons keyword settles _ ih =>
    rw [List.cons_append, List.append_assoc]
    exact .cons keyword settles ih

theorem pieces_eq (falls : FallsInto ls clauses) :
    pieces Lexeme.queryWord? 0 ls = ([], clauses) := by
  induction falls with
  | nil => rfl
  | @cons x word ls rest clauses keyword settles _ ih =>
    have level : x.level 0 = 0 := by
      cases x with
      | sign c => cases keyword
      | _ => rfl
    have uncut (x : Lexeme) (other : x.isQueryWord = false) : x.queryWord? = none := by
      simpa [Lexeme.isQueryWord] using other
    rw [pieces_key keyword, level, pieces_append uncut settles, ih, List.append_nil]

theorem tail_page (falls : FallsInto ls clauses) :
    (page ls).tail = clauses.dropWhile fun clause => clause.1.isOperand := by
  rw [page, falls.pieces_eq]

end FallsInto

section Nested
variable {stop : Lexeme → Bool} {p q : Nat} {ls rest : List Lexeme}

theorem selects_append (full : ls ≠ []) : selects (ls ++ rest) = selects ls := by
  cases ls with
  | nil => exact absurd rfl full
  | cons x ls => rfl

theorem nestedQueries_of_unopened (none : ∀ x ∈ ls, x ≠ .sign '(') :
    nestedQueries (ls ++ rest) = nestedQueries rest := by
  induction ls with
  | nil => rfl
  | cons x ls ih =>
    obtain ⟨unopened, others⟩ := List.forall_mem_cons.mp none
    rw [List.cons_append, nestedQueries, if_neg fun query => unopened query.1, ih others]

theorem nestedQueries_append (settles : still stop p ls = some 0) :
    nestedQueries (ls ++ rest) = nestedQueries ls ++ nestedQueries rest := by
  induction ls generalizing p with
  | nil => rfl
  | cons x ls ih =>
    obtain ⟨within, settles⟩ := still_cons_eq_some.mp settles
    rw [List.cons_append, nestedQueries, nestedQueries, ih settles]
    by_cases opening : x = .sign '('
    · subst opening
      have settles : still stop (0 + (p + 1)) ls = some 0 := by rwa [Nat.zero_add]
      have full : ls ≠ [] := by
        rintro rfl
        simp [still] at settles
      rw [selects_append full, inside_of_closed settles (Nat.zero_le p)]
      split <;> rfl
    · rw [if_neg fun query => opening query.1, if_neg fun query => opening query.1]

theorem nestedQueries_bracketed (query : selects ls = true) (settles : still stop 0 ls = some 0) :
    nestedQueries (.sign '(' :: (ls ++ Lexeme.sign ')' :: rest)) =
      ls :: (nestedQueries ls ++ nestedQueries rest) := by
  have full : ls ≠ [] := by
    rintro rfl
    cases query
  have closing : nestedQueries (.sign ')' :: rest) = nestedQueries rest := by
    rw [nestedQueries, if_neg (by simp)]
  rw [nestedQueries, selects_append full, query, if_pos ⟨rfl, rfl⟩, inside_enclosed settles,
    nestedQueries_append settles, closing]

end Nested

theorem Page.admitted_of_tail {nested : Bool} {page : Page} (none : page.tail = []) :
    page.Admitted nested := by
  constructor <;> simp [none]

end TypedSql
