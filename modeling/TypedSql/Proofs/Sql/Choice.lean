import TypedSql.Proofs.Sql.Outline

namespace TypedSql

inductive ChoiceWord where
  | first | between | last
  deriving DecidableEq

def choiceWord? (w : List Char) : Option ChoiceWord :=
  if w = "CASE".toList then some .first
  else if w = "WHEN".toList ∨ w = "THEN".toList ∨ w = "ELSE".toList then some .between
  else if w = "END".toList then some .last
  else none

/-- How many brackets are open, and how many choices outside of them. -/
structure Depth where
  parens : Nat := 0
  choices : Nat := 0
  deriving DecidableEq

def Mark.step (k : Nat) : Mark → Option Nat
  | .word w =>
    match choiceWord? w, k with
    | some .first, k => some (k + 1)
    | some _, 0 => none
    | some .between, k + 1 => some (k + 1)
    | some .last, k + 1 => some k
    | none, k => if (Mark.word w).isPlain then some k else none
  | .group => some k
  | .comma => none

/-- The depth after a lexeme of an expression. A bracket or a choice that it has not opened, a
    comma and a clause end it. -/
def Depth.step (l : Depth) (x : Lexeme) : Option Depth :=
  if l.parens = 0 ∧ x = .sign ')' then none
  else ((x.mark? l.parens).elim (some l.choices) (Mark.step l.choices)).map
    (⟨x.level l.parens, ·⟩)

def weigh (l : Depth) (ls : List Lexeme) : Option Depth := ls.foldlM Depth.step l

/-- The expression that a text begins with, and what is left. -/
def expression (l : Depth) : List Lexeme → List Lexeme × List Lexeme
  | [] => ([], [])
  | x :: rest =>
    match l.step x with
    | some m => (x :: (expression m rest).1, (expression m rest).2)
    | none => ([], x :: rest)

def Depth.shift (l : Depth) (k : Nat) : Depth := ⟨l.parens, l.choices + k⟩

section Weighing
variable {l m n : Depth} {ls rest : List Lexeme} {x : Lexeme}

theorem weigh_append (first : weigh l ls = some m) (second : weigh m rest = some n) :
    weigh l (ls ++ rest) = some n := by
  rw [weigh, List.foldlM_append]
  exact Option.bind_eq_some_iff.mpr ⟨m, first, second⟩

theorem weigh_cons : weigh l (x :: ls) = (l.step x).bind fun m => weigh m ls := rfl

theorem expression_append (weighs : weigh l ls = some m) (stuck : m.step x = none) :
    expression l (ls ++ x :: rest) = (ls, x :: rest) := by
  induction ls generalizing l with
  | nil =>
    cases weighs
    rw [List.nil_append, expression, stuck]
  | cons y ls ih =>
    obtain ⟨next, stepped, weighs⟩ := Option.bind_eq_some_iff.mp (weigh_cons ▸ weighs)
    rw [List.cons_append, expression, stepped]
    simp [ih weighs]

theorem Mark.step_shift {mark : Mark} {i j : Nat} (steps : mark.step i = some j) (k : Nat) :
    mark.step (i + k) = some (j + k) := by
  cases mark with
  | word w =>
    unfold step at steps ⊢
    cases found : choiceWord? w with
    | none => simp_all
    | some word => cases word <;> cases i <;> simp_all <;> grind
  | group => simp_all [step]
  | comma => cases steps

theorem isPlain_of_step {mark : Mark} {i j : Nat} (steps : mark.step i = some j) :
    mark.isPlain = true := by
  cases mark with
  | word w =>
    cases found : choiceWord? w with
    | none => simp_all [Mark.step]
    | some word =>
      unfold choiceWord? at found
      split_ifs at found with case between last
      · rw [case]; decide
      · rcases between with rfl | rfl | rfl <;> decide
      · rw [last]; decide
  | group => rfl
  | comma => cases steps

theorem Depth.step_eq_some :
    l.step x = some m ↔ ¬(l.parens = 0 ∧ x = .sign ')') ∧ x.level l.parens = m.parens ∧
      (x.mark? l.parens).elim (some l.choices) (Mark.step l.choices) = some m.choices := by
  obtain ⟨p, k⟩ := m
  unfold step
  split
  · simp_all
  · rename_i within
    simp only [Option.map_eq_some_iff, Depth.mk.injEq, within, not_false_eq_true, true_and]
    constructor
    · rintro ⟨_, counted, level, rfl⟩
      exact ⟨level, counted⟩
    · rintro ⟨level, counted⟩
      exact ⟨k, counted, level, rfl⟩

theorem weigh_shift (weighs : weigh l ls = some m) (k : Nat) :
    weigh (l.shift k) ls = some (m.shift k) := by
  induction ls generalizing l with
  | nil =>
    cases weighs
    rfl
  | cons x ls ih =>
    obtain ⟨next, stepped, weighs⟩ := Option.bind_eq_some_iff.mp (weigh_cons ▸ weighs)
    have shifted : (l.shift k).step x = some (next.shift k) := by
      obtain ⟨within, level, counted⟩ := Depth.step_eq_some.mp stepped
      refine Depth.step_eq_some.mpr ⟨within, level, ?_⟩
      show (x.mark? l.parens).elim _ _ = _
      cases mark : x.mark? l.parens with
      | none => simpa [mark, Depth.shift] using counted
      | some mark' => exact Mark.step_shift (by simpa [mark] using counted) k
    rw [weigh_cons, shifted]
    exact ih weighs

theorem hush_of_weigh (weighs : weigh l ls = some m) : hush l.parens ls = some m.parens := by
  induction ls generalizing l with
  | nil =>
    cases weighs
    rfl
  | cons x ls ih =>
    obtain ⟨next, stepped, weighs⟩ := Option.bind_eq_some_iff.mp (weigh_cons ▸ weighs)
    obtain ⟨-, level, counted⟩ := Depth.step_eq_some.mp stepped
    have first : hush l.parens [x] = some next.parens := by
      refine hush_eq_some.mpr ⟨_, Prod.ext rfl level, ?_⟩
      cases mark : x.mark? l.parens with
      | none => simp [skim, mark]
      | some shown => simpa [skim, mark] using isPlain_of_step (by simpa [mark] using counted)
    exact hush_append first (ih weighs)

theorem Depth.step_inside {p k : Nat} :
    (Depth.mk (p + 1) k).step x = some ⟨x.level (p + 1), k⟩ := by
  have hidden : x.mark? (p + 1) = none := by cases x <;> rfl
  simp [step, hidden]

theorem weigh_of_nest {p q k : Nat} (nested : nest (ls.filterMap Lexeme.sign?) p = some q) :
    weigh ⟨p + 1, k⟩ ls = some ⟨q + 1, k⟩ := by
  induction ls generalizing p with
  | nil =>
    cases nested
    rfl
  | cons x ls ih =>
    obtain ⟨r, level, inner⟩ := nest_level nested
    rw [weigh_cons, Depth.step_inside, level]
    exact ih inner

theorem Mark.step_of_bare {w : List Char} (bare : (Lexeme.word w).isBare = true) (k : Nat) :
    (Mark.word (w.map Char.toUpper)).step k = some k := by
  have other : choiceWord? (w.map Char.toUpper) = none := by
    have apart {keyword : List Char} (spelled : isSpelled keyword = true) :
        w.map Char.toUpper ≠ keyword := (ne_of_bare bare spelled).symm
    unfold choiceWord?
    rw [if_neg (apart (by decide)), if_neg, if_neg (apart (by decide))]
    rintro (same | same | same) <;> exact apart (by decide) same
  simp [step, other, isPlain_of_bare bare]

theorem Depth.step_of_bare (bare : x.isBare = true) : l.step x = some l := by
  cases x with
  | word w =>
    obtain ⟨p, k⟩ := l
    cases p with
    | zero => simp [step, Lexeme.mark?, Lexeme.level, Mark.step_of_bare bare]
    | succ p => exact step_inside
  | sign c =>
    simp only [Lexeme.isBare, Bool.and_eq_true, bne_iff_ne, ne_eq] at bare
    obtain ⟨⟨opening, closing⟩, comma⟩ := bare
    have hidden : (Lexeme.sign c).mark? l.parens = none := by
      unfold Lexeme.mark?
      split <;> simp_all
    have level : (Lexeme.sign c).level l.parens = l.parens := by
      unfold Lexeme.level
      split <;> simp_all
    simp [step, closing, hidden, level]
  | name n => cases l with | mk p k => cases p <;> rfl
  | literal n => cases l with | mk p k => cases p <;> rfl

theorem weigh_of_bare (bare : ∀ x ∈ ls, x.isBare = true) : weigh l ls = some l := by
  induction ls with
  | nil => rfl
  | cons x ls ih =>
    rw [weigh_cons, Depth.step_of_bare (bare x List.mem_cons_self)]
    exact ih fun y member => bare y (List.mem_cons_of_mem _ member)

end Weighing

def weighsIn (cs : List Char) (l m : Depth) : Bool :=
  closed cs && weigh l (cs.foldr gather []) == some m

def weighsOut (cs : List Char) (l m : Depth) : Bool :=
  opened cs && weigh l (cs.foldr gather []) == some m

/-- That a part can stand in an expression, and what is open after it. -/
def Sql.Weighs (spell : Hole → String) (l : Depth) (s : Sql) (m : Depth) : Prop :=
  weigh l (s.lexemes spell) = some m

namespace Sql.Weighs
variable {spell : Hole → String} {l m n o : Depth} {p q k : Nat} {s t : Sql}
  {pre mid post : String}

theorem append (apart : Apart (t.lexemes spell)) (first : s.Weighs spell l m)
    (second : t.Weighs spell m n) : (s ++ t).Weighs spell l n := by
  unfold Weighs at *
  rw [lexemes_append apart]
  exact weigh_append first second

theorem nil : Weighs spell l [] l := rfl

theorem of_bare (bare : ∀ x ∈ s.lexemes spell, x.isBare = true) : s.Weighs spell l l :=
  weigh_of_bare bare

theorem shift (weighs : s.Weighs spell l m) (k : Nat) :
    s.Weighs spell (l.shift k) (m.shift k) := weigh_shift weighs k

theorem hushed (weighs : s.Weighs spell {} {}) : s.Hushed spell 0 0 := hush_of_weigh weighs

theorem text (fixed : weigh l (pre.toList.foldr gather []) = some m) :
    (sql pre).Weighs spell l m := by rwa [Weighs, lexemes_sql]

theorem led (leading : weighsIn pre.toList l m = true) (inner : s.Weighs spell m n) :
    (sql pre ++ s).Weighs spell l n := by
  simp only [weighsIn, Bool.and_eq_true, beq_iff_eq] at leading
  unfold Weighs at *
  rw [lexemes_closed leading.1]
  exact weigh_append leading.2 inner

theorem closed (inner : s.Weighs spell l m) (closing : weighsOut post.toList m n = true) :
    (s ++ sql post).Weighs spell l n := by
  simp only [weighsOut, Bool.and_eq_true, beq_iff_eq] at closing
  unfold Weighs at *
  rw [lexemes_opened closing.1]
  exact weigh_append inner closing.2

theorem linked (first : s.Weighs spell l m) (linking : weighsOut mid.toList m n = true)
    (ends : TypedSql.closed mid.toList = true) (second : t.Weighs spell n o) :
    (s ++ sql mid ++ t).Weighs spell l o := by
  simp only [weighsOut, Bool.and_eq_true, beq_iff_eq] at linking
  unfold Weighs at *
  rw [lexemes_linked linking.1 ends]
  exact weigh_append first (weigh_append linking.2 second)

theorem of_runs {P Q : Stance} (inert : SpelledInert spell) {e : Edge} (stands : P.Holds e)
    (runs : s.Runs P 0 Q 0) : s.Weighs spell ⟨p + 1, k⟩ ⟨p + 1, k⟩ :=
  weigh_of_nest (runs.nest_lexemes inert stands p)

theorem of_phrase (inert : SpelledInert spell) (phrase : Phrase s) :
    s.Weighs spell ⟨p + 1, k⟩ ⟨p + 1, k⟩ := by
  have stands : Stance.Holds (.ready .field) (.before .field) := rfl
  exact of_runs inert stands phrase

theorem enclosed (inert : SpelledInert spell) (leading : weighsIn pre.toList {} ⟨1, 0⟩ = true)
    (inner : Phrase s) (closing : weighsOut post.toList ⟨1, 0⟩ {} = true) :
    (sql pre ++ s ++ sql post).Weighs spell {} {} :=
  (led leading (of_phrase inert inner)).closed closing

theorem paired (inert : SpelledInert spell) (leading : weighsIn pre.toList {} ⟨1, 0⟩ = true)
    (first : Phrase s) (linking : weighsOut mid.toList ⟨1, 0⟩ ⟨p + 1, 0⟩ = true)
    (ends : TypedSql.closed mid.toList = true) (second : Phrase t)
    (closing : weighsOut post.toList ⟨p + 1, 0⟩ {} = true) :
    (sql pre ++ s ++ sql mid ++ t ++ sql post).Weighs spell {} {} :=
  ((led leading (of_phrase inert first)).linked linking ends (of_phrase inert second)).closed
    closing

theorem linkedClosed (inert : SpelledInert spell) (first : s.Weighs spell {} {})
    (linking : weighsOut mid.toList {} ⟨p + 1, 0⟩ = true) (ends : TypedSql.closed mid.toList = true)
    (second : Phrase t) (closing : weighsOut post.toList ⟨p + 1, 0⟩ {} = true) :
    (s ++ sql mid ++ t ++ sql post).Weighs spell {} {} :=
  (first.linked linking ends (of_phrase inert second)).closed closing

theorem join (linking : weighsOut mid.toList {} {} = true)
    (ends : TypedSql.closed mid.toList = true) {parts : List Sql}
    (each : ∀ part ∈ parts, part.Weighs spell {} {}) : (Sql.join mid parts).Weighs spell {} {} := by
  induction parts with
  | nil => exact .nil
  | cons part rest ih =>
    have first := each part List.mem_cons_self
    cases rest with
    | nil => exact first
    | cons next rest =>
      have others := ih fun other member => each other (List.mem_cons_of_mem _ member)
      exact first.linked linking ends others

end Sql.Weighs

end TypedSql
