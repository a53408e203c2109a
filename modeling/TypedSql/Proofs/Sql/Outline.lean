import TypedSql.Proofs.Sql.Passage

namespace TypedSql

/-- What shows outside of brackets: a word, in capitals, a pair of brackets as a whole, a comma. -/
inductive Mark where
  | word (w : List Char)
  | group
  | comma
  deriving DecidableEq

def Lexeme.mark? : Nat → Lexeme → Option Mark
  | 0, .word w => some (.word (w.map Char.toUpper))
  | 0, .sign '(' => some .group
  | 0, .sign ',' => some .comma
  | _, _ => none

def Lexeme.level : Nat → Lexeme → Nat
  | p, .sign '(' => p + 1
  | p, .sign ')' => p - 1
  | p, _ => p

/-- The marks of a text, from where some brackets are open, and how many are open after it. -/
def skim : Nat → List Lexeme → List Mark × Nat
  | p, [] => ([], p)
  | p, x :: rest =>
    let after := skim (x.level p) rest
    ((x.mark? p).toList ++ after.1, after.2)

inductive Opening where
  | distinct
  | join (kind : JoinKind)
  | values | set | filter | groupBy | having | orderBy | limit | offset | lock
  | onConflict | returning
  deriving DecidableEq

def Opening.word : Opening → String
  | .distinct => "DISTINCT"
  | .join kind => kind.keyword
  | .values => "VALUES"
  | .set => "SET"
  | .filter => "WHERE"
  | .groupBy => "GROUP"
  | .having => "HAVING"
  | .orderBy => "ORDER"
  | .limit => "LIMIT"
  | .offset => "OFFSET"
  | .lock => "FOR"
  | .onConflict => "CONFLICT"
  | .returning => "RETURNING"

def openings : List Opening :=
  [.distinct, .join .inner, .join .left, .join .right, .join .full, .join .cross, .values, .set,
    .filter, .groupBy, .having, .orderBy, .limit, .offset, .lock, .onConflict, .returning]

def Mark.opening? : Mark → Option Opening
  | .word w => openings.find? fun opening => opening.word.toList == w
  | _ => none

/-- The marks before the first clause, and the clauses, each with what follows its word. -/
def sections : List Mark → List Mark × List (Opening × List Mark)
  | [] => ([], [])
  | m :: rest =>
    let after := sections rest
    match m.opening? with
    | some opening => ([], (opening, after.1) :: after.2)
    | none => (m :: after.1, after.2)

/-- What a clause of a statement says of itself. -/
inductive Heading where
  | distinct | distinctOn
  | join (kind : JoinKind)
  | values (tuples : Nat)
  | set (entries : Nat)
  | filter | groupBy | having | orderBy
  | limit (n : Nat)
  | offset (n : Nat)
  | lock (lock : RowLock)
  | onConflict | returning
  deriving DecidableEq

def Mark.is (word : String) (m : Mark) : Bool := m == .word word.toList

def Mark.number? : Mark → Option Nat
  | .word w => if w.all Char.isDigit then some (Nat.ofDigitChars 10 w 0) else none
  | _ => none

def strength? (m : Mark) : Option LockStrength :=
  if m.is "UPDATE" then some .update else if m.is "SHARE" then some .share else none

def wait? : List Mark → Option LockWait
  | [] => some .wait
  | [m] => if m.is "NOWAIT" then some .noWait else none
  | [m, n] => if m.is "SKIP" && n.is "LOCKED" then some .skipLocked else none
  | _ => none

/-- The heading of a clause. The rest of a keyword has to follow its first word, and a number or a
    lock has to stand alone. -/
def heading? : Opening × List Mark → Option Heading
  | (.distinct, body) => some (if body.head?.any (Mark.is "ON") then .distinctOn else .distinct)
  | (.join kind, body) => if body.head?.any (Mark.is "JOIN") then some (.join kind) else none
  | (.values, body) => some (.values (body.count .group))
  | (.set, body) => some (.set (body.count .comma + 1))
  | (.filter, _) => some .filter
  | (.groupBy, body) => if body.head?.any (Mark.is "BY") then some .groupBy else none
  | (.having, _) => some .having
  | (.orderBy, body) => if body.head?.any (Mark.is "BY") then some .orderBy else none
  | (.limit, [m]) => m.number?.map .limit
  | (.offset, [m]) => m.number?.map .offset
  | (.lock, m :: rest) => (strength? m).bind fun strength => (wait? rest).map (.lock ⟨strength, ·⟩)
  | (.onConflict, _) => some .onConflict
  | (.returning, _) => some .returning
  | _ => none

def outline (ls : List Lexeme) : Option (List Heading) := (sections (skim 0 ls).1).2.mapM heading?

section Skimming
variable {p q r : Nat} {ls rest : List Lexeme}

theorem skim_append (p : Nat) (ls rest : List Lexeme) :
    skim p (ls ++ rest) =
      ((skim p ls).1 ++ (skim (skim p ls).2 rest).1, (skim (skim p ls).2 rest).2) := by
  induction ls generalizing p with
  | nil => rfl
  | cons x ls ih => simp [skim, ih]

theorem skim_inside (p : Nat) (x : Lexeme) (ls : List Lexeme) :
    skim (p + 1) (x :: ls) = skim (x.level (p + 1)) ls := by
  have hidden : x.mark? (p + 1) = none := by cases x <;> rfl
  rw [skim, hidden]
  rfl

theorem nest_level {x : Lexeme} (nested : nest ((x :: ls).filterMap Lexeme.sign?) p = some q) :
    ∃ r, x.level (p + 1) = r + 1 ∧ nest (ls.filterMap Lexeme.sign?) r = some q := by
  cases x with
  | word w => exact ⟨p, rfl, nested⟩
  | name n => exact ⟨p, rfl, nested⟩
  | literal l => exact ⟨p, rfl, nested⟩
  | sign c =>
    have nested : nest (c :: ls.filterMap Lexeme.sign?) p = some q := nested
    by_cases opening : c = '('
    · subst opening
      exact ⟨p + 1, rfl, nested⟩
    · by_cases closing : c = ')'
      · subst closing
        cases p with
        | zero => cases nested
        | succ p => exact ⟨p, rfl, nested⟩
      · have level : (Lexeme.sign c).level (p + 1) = p + 1 := by
          unfold Lexeme.level
          split <;> simp_all
        rw [nest] at nested
        · exact ⟨p, level, nested⟩
        · simpa using opening
        · simpa using closing

theorem skim_of_nest (nested : nest (ls.filterMap Lexeme.sign?) p = some q) :
    skim (p + 1) ls = ([], q + 1) := by
  induction ls generalizing p with
  | nil =>
    cases nested
    rfl
  | cons x ls ih =>
    obtain ⟨r, level, inner⟩ := nest_level nested
    rw [skim_inside, level]
    exact ih inner

end Skimming

def Mark.isPlain : Mark → Bool
  | .word w => (Mark.word w).opening? == none && w != "ON".toList
  | .group => true
  | .comma => false

def hush (p : Nat) (ls : List Lexeme) : Option Nat :=
  if (skim p ls).1.all Mark.isPlain then some (skim p ls).2 else none

section Hushing
variable {p q r : Nat} {ls rest : List Lexeme}

theorem hush_eq_some :
    hush p ls = some q ↔ ∃ marks, skim p ls = (marks, q) ∧ marks.all Mark.isPlain = true := by
  unfold hush
  split
  · rename_i plain
    rw [Option.some.injEq]
    constructor
    · rintro rfl
      exact ⟨_, rfl, plain⟩
    · rintro ⟨marks, skimmed, -⟩
      rw [skimmed]
  · rename_i other
    simp only [reduceCtorEq, false_iff]
    rintro ⟨marks, skimmed, plain⟩
    rw [skimmed] at other
    exact other plain

theorem hush_append (first : hush p ls = some q) (second : hush q rest = some r) :
    hush p (ls ++ rest) = some r := by
  obtain ⟨marks, skimmed, plain⟩ := hush_eq_some.mp first
  obtain ⟨more, skimmed', plain'⟩ := hush_eq_some.mp second
  refine hush_eq_some.mpr ⟨marks ++ more, ?_, by rw [List.all_append, plain, plain']; rfl⟩
  rw [skim_append, skimmed, skimmed']

def isSpelled (w : List Char) : Bool := w.head?.any Char.isAlpha && !w.tail.isEmpty

theorem ne_of_bare {w keyword : List Char} (bare : (Lexeme.word w).isBare = true)
    (spelled : isSpelled keyword = true) : keyword ≠ w.map Char.toUpper := by
  rintro rfl
  rcases w with - | ⟨c, - | ⟨d, w⟩⟩ <;> simp [isSpelled, Lexeme.isBare] at spelled bare
  rw [bare] at spelled
  cases spelled

theorem isPlain_of_bare {w : List Char} (bare : (Lexeme.word w).isBare = true) :
    (Mark.word (w.map Char.toUpper)).isPlain = true := by
  have none : (Mark.word (w.map Char.toUpper)).opening? = none := by
    refine List.find?_eq_none.mpr fun opening member => ?_
    have each : openings.all (fun opening => isSpelled opening.word.toList) = true := by decide
    simpa using ne_of_bare bare (List.all_eq_true.mp each opening member)
  have other : (w.map Char.toUpper != "ON".toList) = true :=
    bne_iff_ne.mpr (ne_of_bare bare (by decide)).symm
  rw [Mark.isPlain, none, other]
  rfl

end Hushing

def leadsIn (cs : List Char) (p q : Nat) : Bool := closed cs && hush p (cs.foldr gather []) == some q

def leadsOut (cs : List Char) (p q : Nat) : Bool :=
  opened cs && hush p (cs.foldr gather []) == some q

def Sql.Hushed (spell : Hole → String) (p : Nat) (s : Sql) (q : Nat) : Prop :=
  hush p (s.lexemes spell) = some q

namespace Sql.Hushed
variable {spell : Hole → String} {p q r o : Nat} {s t : Sql} {pre mid post : String}

theorem nil : Hushed spell p [] p := rfl

theorem text (fixed : hush p (pre.toList.foldr gather []) = some q) :
    (sql pre).Hushed spell p q := by rwa [Hushed, lexemes_sql]

theorem led (leading : leadsIn pre.toList p q = true) (inner : s.Hushed spell q r) :
    (sql pre ++ s).Hushed spell p r := by
  simp only [leadsIn, Bool.and_eq_true, beq_iff_eq] at leading
  unfold Hushed at *
  rw [lexemes_closed leading.1]
  exact hush_append leading.2 inner

theorem closed (inner : s.Hushed spell p q) (closing : leadsOut post.toList q r = true) :
    (s ++ sql post).Hushed spell p r := by
  simp only [leadsOut, Bool.and_eq_true, beq_iff_eq] at closing
  unfold Hushed at *
  rw [lexemes_opened closing.1]
  exact hush_append inner closing.2

theorem linked (first : s.Hushed spell p q) (linking : leadsOut mid.toList q r = true)
    (ends : TypedSql.closed mid.toList = true) (second : t.Hushed spell r o) :
    (s ++ sql mid ++ t).Hushed spell p o := by
  simp only [leadsOut, Bool.and_eq_true, beq_iff_eq] at linking
  unfold Hushed at *
  rw [lexemes_linked linking.1 ends]
  exact hush_append first (hush_append linking.2 second)

theorem of_runs {P Q : Stance} (inert : SpelledInert spell) {e : Edge} (stands : P.Holds e)
    (runs : s.Runs P 0 Q 0) : s.Hushed spell (p + 1) (p + 1) :=
  hush_eq_some.mpr ⟨[], skim_of_nest (runs.nest_lexemes inert stands p), rfl⟩

theorem of_phrase (inert : SpelledInert spell) (phrase : Phrase s) :
    s.Hushed spell (p + 1) (p + 1) := by
  have stands : Stance.Holds (.ready .field) (.before .field) := rfl
  exact of_runs inert stands phrase

theorem linkedClosed (inert : SpelledInert spell) (first : s.Hushed spell 0 0)
    (linking : leadsOut mid.toList 0 (p + 1) = true) (ends : TypedSql.closed mid.toList = true)
    (second : Phrase t) (closing : leadsOut post.toList (p + 1) 0 = true) :
    (s ++ sql mid ++ t ++ sql post).Hushed spell 0 0 :=
  (first.linked linking ends (of_phrase inert second)).closed closing

end Sql.Hushed

section Sections
variable {ls rest : List Mark}

theorem Mark.opening?_word (opening : Opening) :
    (Mark.word opening.word.toList).opening? = some opening := by
  cases opening with
  | join kind => cases kind <;> decide
  | _ => decide

theorem sections_inner (inner : ∀ m ∈ ls, m.opening? = none) :
    sections (ls ++ rest) = (ls ++ (sections rest).1, (sections rest).2) := by
  induction ls with
  | nil => rfl
  | cons m ls ih =>
    have first := inner m List.mem_cons_self
    have others := ih fun x member => inner x (List.mem_cons_of_mem _ member)
    simp [sections, first, others]

theorem sections_opening (opening : Opening) (rest : List Mark) :
    sections (.word opening.word.toList :: rest) =
      ([], (opening, (sections rest).1) :: (sections rest).2) := by
  simp [sections, Mark.opening?_word]

theorem sections_append (begins : (sections rest).1 = []) :
    sections (ls ++ rest) = ((sections ls).1, (sections ls).2 ++ (sections rest).2) := by
  induction ls with
  | nil => exact Prod.ext begins rfl
  | cons m ls ih =>
    rw [List.cons_append, sections, ih, sections]
    cases m.opening? <;> rfl

end Sections

/-- That the text of a part shows some marks, and then clauses with these headings. -/
def Sql.Outlined (spell : Hole → String) (s : Sql) (lead : List Mark) (headings : List Heading) :
    Prop :=
  ∃ marks clauses, skim 0 (s.lexemes spell) = (marks, 0) ∧ sections marks = (lead, clauses) ∧
    clauses.mapM heading? = some headings

def Sql.Clauses (spell : Hole → String) (s : Sql) (lead : List Mark) (headings : List Heading) :
    Prop :=
  Apart (s.lexemes spell) ∧ s.Outlined spell lead headings

def Sql.Shows (spell : Hole → String) (s : Sql) (marks : List Mark) : Prop :=
  skim 0 (s.lexemes spell) = (marks, 0) ∧ ∀ m ∈ marks, m.opening? = none

def Sql.Sealed (spell : Hole → String) (s : Sql) : Prop :=
  ∀ t, (s ++ t).lexemes spell = s.lexemes spell ++ t.lexemes spell

def Sql.Opens (spell : Hole → String) (opening : Opening) (more : List Mark) (s : Sql) : Prop :=
  s.Sealed spell ∧ skim 0 (s.lexemes spell) = (.word opening.word.toList :: more, 0) ∧
    ∀ m ∈ more, m.opening? = none

def stays (marks : List Mark) (cs : List Char) : Bool :=
  closed cs && marks.all (fun m => m.opening? == none) && skim 0 (cs.foldr gather []) == (marks, 0)

def opens (opening : Opening) (more : List Mark) (cs : List Char) : Bool :=
  closed cs && more.all (fun m => m.opening? == none) &&
    skim 0 (cs.foldr gather []) == (.word opening.word.toList :: more, 0)

section Outlines
variable {spell : Hole → String} {r s t : Sql} {lead more middle marks rest : List Mark}
  {headings others : List Heading} {opening : Opening} {heading : Heading} {pre mid post : String}

theorem Sql.Sealed.text (ends : closed pre.toList = true) : (sql pre).Sealed spell := fun t => by
  rw [lexemes_closed ends, lexemes_sql]

theorem Sql.Sealed.closed (begins : opened post.toList = true)
    (ends : TypedSql.closed post.toList = true) : (s ++ sql post).Sealed spell := fun t => by
  rw [lexemes_linked begins ends, lexemes_opened begins, List.append_assoc]

theorem Sql.skim_enclosed (inert : SpelledInert spell) (ends : closed pre.toList = true)
    (opening : skim 0 (pre.toList.foldr gather []) = (marks, 1)) (inner : Phrase s)
    (begins : opened post.toList = true)
    (closing : skim 1 (post.toList.foldr gather []) = (rest, 0)) :
    skim 0 ((sql pre ++ s ++ sql post).lexemes spell) = (marks ++ rest, 0) := by
  have stands : Stance.Holds (.ready .field) (.before .field) := rfl
  have inside : skim 1 (s.lexemes spell) = ([], 1) :=
    skim_of_nest (Sql.Runs.nest_lexemes inert stands inner 0)
  rw [lexemes_opened begins, lexemes_closed ends, skim_append, skim_append, opening, inside, closing]
  simp

theorem Sql.Opens.text (begun : opens opening more pre.toList = true) :
    (sql pre).Opens spell opening more := by
  simp only [TypedSql.opens, Bool.and_eq_true, List.all_eq_true, beq_iff_eq] at begun
  obtain ⟨⟨ends, inner⟩, fixed⟩ := begun
  exact ⟨.text ends, by rw [lexemes_sql, fixed], inner⟩

theorem Sql.Shows.append (apart : Apart (t.lexemes spell)) (first : s.Shows spell marks)
    (second : t.Shows spell rest) : (s ++ t).Shows spell (marks ++ rest) := by
  refine ⟨?_, List.forall_mem_append.mpr ⟨first.2, second.2⟩⟩
  rw [lexemes_append apart, skim_append, first.1, second.1]

theorem Sql.skim_led (leading : stays middle pre.toList = true)
    (inner : skim 0 (s.lexemes spell) = (marks, 0)) :
    skim 0 ((sql pre ++ s).lexemes spell) = (middle ++ marks, 0) ∧
      ∀ m ∈ middle, m.opening? = none := by
  simp only [stays, Bool.and_eq_true, List.all_eq_true, beq_iff_eq] at leading
  obtain ⟨⟨ends, within⟩, fixed⟩ := leading
  refine ⟨?_, within⟩
  rw [lexemes_closed ends, skim_append, fixed, inner]

theorem Sql.Shows.led (leading : stays middle pre.toList = true) (inner : s.Shows spell marks) :
    (sql pre ++ s).Shows spell (middle ++ marks) := by
  obtain ⟨skimmed, within⟩ := Sql.skim_led leading inner.1
  exact ⟨skimmed, List.forall_mem_append.mpr ⟨within, inner.2⟩⟩

theorem Sql.Shows.linked (linking : stays middle mid.toList = true)
    (begins : opened mid.toList = true) (first : s.Shows spell marks) (second : t.Shows spell rest) :
    (s ++ sql mid ++ t).Shows spell (marks ++ (middle ++ rest)) := by
  rw [List.append_assoc]
  exact first.append (apart_of_opened begins) (second.led linking)

theorem Sql.Shows.outlined (shown : s.Shows spell marks) : s.Outlined spell marks [] := by
  refine ⟨marks, [], shown.1, ?_, rfl⟩
  have whole : sections (marks ++ []) = (marks ++ [], []) := sections_inner shown.2
  rwa [List.append_nil] at whole

theorem Sql.Outlined.append (first : s.Outlined spell lead headings)
    (second : t.Clauses spell [] others) :
    (s ++ t).Outlined spell lead (headings ++ others) := by
  obtain ⟨marks, clauses, skimmed, cut, read⟩ := first
  obtain ⟨apart, marks', clauses', skimmed', cut', read'⟩ := second
  refine ⟨marks ++ marks', clauses ++ clauses', ?_, ?_, ?_⟩
  · rw [lexemes_append apart, skim_append, skimmed, skimmed']
  · rw [sections_append (by rw [cut']), cut, cut']
  · rw [List.mapM_append, read, read']
    rfl

theorem Sql.Outlined.led (leading : stays middle pre.toList = true)
    (inner : s.Outlined spell lead headings) :
    (sql pre ++ s).Outlined spell (middle ++ lead) headings := by
  obtain ⟨marks, clauses, skimmed, cut, read⟩ := inner
  obtain ⟨skimmed', within⟩ := Sql.skim_led leading skimmed
  exact ⟨middle ++ marks, clauses, skimmed', by rw [sections_inner within, cut], read⟩

theorem Sql.Outlined.opened (begun : r.Opens spell opening more) (shown : s.Shows spell marks)
    (next : t.Clauses spell lead headings)
    (headed : heading? (opening, more ++ marks ++ lead) = some heading) :
    (r ++ s ++ t).Outlined spell [] (heading :: headings) := by
  obtain ⟨ends, keyword, inner⟩ := begun
  obtain ⟨apart, marks', clauses, skimmed, cut, read⟩ := next
  have within : ∀ m ∈ more ++ marks, m.opening? = none :=
    List.forall_mem_append.mpr ⟨inner, shown.2⟩
  refine ⟨.word opening.word.toList :: (more ++ marks ++ marks'),
    (opening, more ++ marks ++ lead) :: clauses, ?_, ?_, ?_⟩
  · rw [lexemes_append apart, ends, skim_append, skim_append, keyword, shown.1, skimmed]
    simp
  · rw [sections_opening, sections_inner within, cut]
  · rw [List.mapM_cons, headed, read]
    rfl

namespace Sql.Clauses

theorem nil : Clauses spell [] [] [] := ⟨trivial, [], [], rfl, rfl, rfl⟩

theorem text (begins : TypedSql.opened pre.toList = true)
    (level : (skim 0 (pre.toList.foldr gather [])).2 = 0)
    (cut : (sections (skim 0 (pre.toList.foldr gather [])).1).1 = lead)
    (read : outline (pre.toList.foldr gather []) = some headings) :
    (sql pre).Clauses spell lead headings := by
  have apart : Apart ((sql pre ++ []).lexemes spell) := apart_of_opened begins
  rw [List.append_nil] at apart
  refine ⟨apart, _, _, ?_, Prod.ext cut rfl, read⟩
  rw [lexemes_sql]
  exact Prod.ext rfl level

theorem append (first : s.Clauses spell lead headings) (second : t.Clauses spell [] others) :
    (s ++ t).Clauses spell lead (headings ++ others) := by
  refine ⟨?_, first.2.append second⟩
  rw [lexemes_append second.1]
  exact first.1.append second.1

theorem opened (begins : TypedSql.opened pre.toList = true)
    (begun : opens opening more pre.toList = true) (shown : s.Shows spell marks)
    (next : t.Clauses spell lead headings)
    (headed : heading? (opening, more ++ marks ++ lead) = some heading) :
    (sql pre ++ s ++ t).Clauses spell [] (heading :: headings) := by
  refine ⟨?_, .opened (.text begun) shown next headed⟩
  rw [List.append_assoc]
  exact apart_of_opened begins

theorem single (begins : TypedSql.opened pre.toList = true)
    (begun : opens opening more pre.toList = true) (shown : s.Shows spell marks)
    (headed : heading? (opening, more ++ marks) = some heading) :
    (sql pre ++ s).Clauses spell [] [heading] := by
  have alone := opened begins begun shown nil (by rwa [List.append_nil])
  rwa [List.append_nil] at alone

theorem flatten {α : Type} {pairs : List (α × Sql)} {f : α → Heading}
    (each : ∀ p ∈ pairs, p.2.Clauses spell [] [f p.1]) :
    Clauses spell (pairs.map Prod.snd).flatten [] ((pairs.map Prod.fst).map f) := by
  induction pairs with
  | nil => exact .nil
  | cons p rest ih =>
    have first := each p List.mem_cons_self
    exact first.append (ih fun q member => each q (List.mem_cons_of_mem _ member))

end Sql.Clauses

theorem Mark.opening?_of_plain {m : Mark} (plain : m.isPlain = true) : m.opening? = none := by
  cases m with
  | word w =>
    simp only [isPlain, Bool.and_eq_true, beq_iff_eq] at plain
    exact plain.1
  | _ => rfl

theorem Sql.Hushed.exists_shows (hushed : s.Hushed spell 0 0) :
    ∃ marks, s.Shows spell marks ∧ ∀ m ∈ marks, m.isPlain = true := by
  obtain ⟨marks, skimmed, plain⟩ := hush_eq_some.mp hushed
  have each := List.all_eq_true.mp plain
  exact ⟨marks, ⟨skimmed, fun m member => Mark.opening?_of_plain (each m member)⟩, each⟩

def Sql.Lists (spell : Hole → String) (s : Sql) (commas : Nat) : Prop :=
  ∃ marks, s.Shows spell marks ∧ (∀ m ∈ marks, m = .comma ∨ m.isPlain = true) ∧
    marks.count .comma = commas

theorem Sql.Hushed.lists (hushed : s.Hushed spell 0 0) : s.Lists spell 0 := by
  obtain ⟨marks, shown, plain⟩ := hushed.exists_shows
  have none : .comma ∉ marks := fun member => by cases plain _ member
  exact ⟨marks, shown, fun m member => .inr (plain m member), List.count_eq_zero.mpr none⟩

theorem Sql.Lists.commaList {parts : List Sql} (each : ∀ part ∈ parts, part.Hushed spell 0 0) :
    (Sql.commaList parts).Lists spell (parts.length - 1) := by
  unfold Sql.commaList
  induction parts with
  | nil => exact Sql.Hushed.nil.lists
  | cons part rest ih =>
    have first := each part List.mem_cons_self
    cases rest with
    | nil => exact first.lists
    | cons next rest =>
      obtain ⟨marks, shown, listed, counted⟩ := first.lists
      obtain ⟨marks', shown', listed', counted'⟩ :=
        ih fun other member => each other (List.mem_cons_of_mem _ member)
      have whole : (Sql.join ", " (part :: next :: rest)).Shows spell
          (marks ++ ([Mark.comma] ++ marks')) :=
        shown.linked (by decide) (by decide) shown'
      refine ⟨_, whole, ?_, ?_⟩
      · exact List.forall_mem_append.mpr ⟨listed, List.forall_mem_cons.mpr ⟨.inl rfl, listed'⟩⟩
      · simp [counted, counted']

theorem Sql.Shows.groups {parts : List Sql} (each : ∀ part ∈ parts, part.Shows spell [.group]) :
    ∃ marks, (Sql.commaList parts).Shows spell marks ∧ marks.count .group = parts.length := by
  unfold Sql.commaList
  induction parts with
  | nil => exact ⟨[], ⟨rfl, by simp⟩, rfl⟩
  | cons part rest ih =>
    have first := each part List.mem_cons_self
    cases rest with
    | nil => exact ⟨[.group], first, rfl⟩
    | cons next rest =>
      obtain ⟨marks, shown, counted⟩ :=
        ih fun other member => each other (List.mem_cons_of_mem _ member)
      have whole : (Sql.join ", " (part :: next :: rest)).Shows spell
          ([Mark.group] ++ ([Mark.comma] ++ marks)) :=
        first.linked (by decide) (by decide) shown
      exact ⟨_, whole, by simp [counted]⟩

end Outlines
end TypedSql
