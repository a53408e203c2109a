import Mathlib.Data.List.DropRight
import TypedSql.Proofs.Sql.Lexeme
import TypedSql.Tree.Operator

namespace TypedSql

/-- The truth values of conditions, null among them. -/
inductive Truth where
  | false | unknown | true
  deriving DecidableEq, Repr

def Truth.and : Truth → Truth → Truth
  | .true, b => b
  | a, .true => a
  | .unknown, .unknown => .unknown
  | _, _ => .false

def Truth.or : Truth → Truth → Truth
  | .false, b => b
  | a, .false => a
  | .unknown, .unknown => .unknown
  | _, _ => .true

def Connective.fold : Connective → List Truth → Truth
  | .and, values => values.foldr Truth.and .true
  | .or, values => values.foldr Truth.or .false

/-- A condition as far as its connectives go. -/
inductive Formula where
  | leaf (text : String)
  | group (op : Connective) (items : List Formula)

mutual

def Formula.value (truth : String → Truth) : Formula → Truth
  | .leaf text => truth text
  | .group op items => op.fold (Formula.values truth items)

def Formula.values (truth : String → Truth) : List Formula → List Truth
  | [] => []
  | item :: rest => item.value truth :: Formula.values truth rest

end

inductive Keyword where
  | case | finish | between
  | connective (op : Connective)
  deriving DecidableEq

def keyword? (word : List Char) : Option Keyword :=
  let upper := word.map Char.toUpper
  if upper = "CASE".toList then some .case
  else if upper = "END".toList then some .finish
  else if upper = "BETWEEN".toList then some .between
  else if upper = "AND".toList then some (.connective .and)
  else if upper = "OR".toList then some (.connective .or)
  else none

structure Level where
  parens : Nat := 0
  cases : Nat := 0
  ranges : Nat := 0
  deriving DecidableEq

/-- What comes of the next lexeme: it belongs to the part being read, or ends it, or has no place
    here. -/
inductive Turn where
  | on (l : Level)
  | cut (op : Connective)
  | stuck
  deriving DecidableEq

/-- Words count outside of brackets, connectives outside of choices too. A range takes one AND. -/
def Level.turn (l : Level) : Lexeme → Turn
  | .sign '(' => .on { l with parens := l.parens + 1 }
  | .sign ')' =>
    match l.parens with
    | 0 => .stuck
    | p + 1 => .on { l with parens := p }
  | .word w =>
    if l.parens ≠ 0 then .on l
    else match keyword? w, l.cases with
      | some .case, k => .on { l with cases := k + 1 }
      | some .finish, 0 => .stuck
      | some .finish, k + 1 => .on { l with cases := k }
      | some .between, 0 => .on { l with ranges := l.ranges + 1 }
      | some (.connective op), 0 =>
        match op, l.ranges with
        | .and, r + 1 => .on { l with ranges := r }
        | op, _ => .cut op
      | _, _ => .on l
  | _ => .on l

/-- The parts of a condition that its outermost connectives leave, each further one with the
    connective before it. -/
def cut (l : Level) : List Lexeme → Option (List Lexeme × List (Connective × List Lexeme))
  | [] => if l = {} then some ([], []) else none
  | x :: rest =>
    match l.turn x with
    | .on next => (cut next rest).map fun parts => (x :: parts.1, parts.2)
    | .cut op => (cut l rest).map fun parts => ([], (op, parts.1) :: parts.2)
    | .stuck => none

def alternatives {α : Type} (first : α) : List (Connective × α) → List (List α)
  | [] => [[first]]
  | (.or, next) :: rest => [first] :: alternatives next rest
  | (.and, next) :: rest =>
    match alternatives next rest with
    | [] => [[first]]
    | run :: runs => (first :: run) :: runs

def isBlankLexeme : Lexeme → Bool
  | .sign c => c.isWhitespace
  | _ => false

def trim (ls : List Lexeme) : List Lexeme :=
  (ls.dropWhile isBlankLexeme).rdropWhile isBlankLexeme

def Lexeme.sign? : Lexeme → Option Char
  | .sign c => some c
  | _ => none

def enclosed? (part : List Lexeme) : Option (List Lexeme) :=
  if part = .sign '(' :: part.tail.dropLast ++ [.sign ')'] ∧
      nest (part.tail.dropLast.filterMap Lexeme.sign?) 0 = some 0 then
    some part.tail.dropLast
  else none

theorem enclosed?_eq_some {part inner : List Lexeme} (encloses : enclosed? part = some inner) :
    part = Lexeme.sign '(' :: inner ++ [Lexeme.sign ')'] := by
  unfold enclosed? at encloses
  split at encloses
  · rename_i whole
    cases encloses
    exact whole.1
  · cases encloses

theorem trim_length (ls : List Lexeme) : (trim ls).length ≤ ls.length := by
  have back : (trim ls).length ≤ (ls.dropWhile isBlankLexeme).length :=
    (List.rdropWhile_prefix isBlankLexeme (ls.dropWhile isBlankLexeme)).length_le
  have front : (ls.dropWhile isBlankLexeme).length ≤ ls.length :=
    (List.dropWhile_suffix isBlankLexeme).length_le
  omega

theorem cut_length {l : Level} {ls first : List Lexeme} {more : List (Connective × List Lexeme)}
    (made : cut l ls = some (first, more)) :
    ∀ part ∈ first :: more.map Prod.snd, part.length ≤ ls.length := by
  induction ls generalizing l first more with
  | nil =>
    unfold cut at made
    split at made <;> cases made
    simp
  | cons x rest ih =>
    unfold cut at made
    split at made
    · obtain ⟨⟨front, others⟩, inner, same⟩ := Option.map_eq_some_iff.mp made
      cases same
      have below := ih inner
      simp only [List.mem_cons, forall_eq_or_imp, List.length_cons] at below ⊢
      exact ⟨by omega, fun part member => (below.2 part member).trans (by omega)⟩
    · obtain ⟨⟨front, others⟩, inner, same⟩ := Option.map_eq_some_iff.mp made
      cases same
      have below := ih inner
      simp only [List.map_cons, List.mem_cons, forall_eq_or_imp, List.length_cons,
        List.length_nil] at below ⊢
      exact ⟨by omega, by omega, fun part member => (below.2 part member).trans (by omega)⟩
    · cases made

def Formula.ofParts (first : Formula) (more : List (Connective × Formula)) : Formula :=
  .group .or ((alternatives first more).map (.group .and))

mutual

/-- Reads a condition by its connectives, AND tighter than OR. -/
def parse (d : Dialect) (ls : List Lexeme) : Option Formula :=
  match _made : cut {} ls with
  | none => none
  | some (first, more) => do
    let φ ← parsePart d first
    let others ← more.attach.mapM fun next => (parsePart d next.1.2).map fun ψ => (next.1.1, ψ)
    some (.ofParts φ others)
termination_by (ls.length, 1)
decreasing_by
  all_goals have below := cut_length _made
  all_goals simp only [List.mem_cons, forall_eq_or_imp] at below
  · exact Prod.Lex.right' _ below.1 (by omega)
  · exact Prod.Lex.right' _ (below.2 _ (List.mem_map_of_mem next.2)) (by omega)

def parsePart (d : Dialect) (part : List Lexeme) : Option Formula :=
  match _within : enclosed? (trim part) with
  | some inner => parse d inner
  | none => some (.leaf (spelled d (trim part)))
termination_by (part.length, 0)
decreasing_by
  have trimmed := trim_length part
  rw [enclosed?_eq_some _within] at trimmed
  simp only [List.cons_append, List.length_cons, List.length_append] at trimmed
  exact Prod.Lex.left _ _ (by omega)

end

theorem parse_of_cut {d : Dialect} {ls first : List Lexeme}
    {more : List (Connective × List Lexeme)} (made : cut {} ls = some (first, more)) :
    parse d ls = (parsePart d first).bind fun φ =>
      (more.mapM fun next => (parsePart d next.2).map fun ψ => (next.1, ψ)).bind fun others =>
        some (.ofParts φ others) := by
  rw [parse]
  split
  · rename_i none
    rw [made] at none
    cases none
  · rename_i first' more' made'
    obtain ⟨rfl, rfl⟩ : first' = first ∧ more' = more := by
      rw [made] at made'
      simpa using made'.symm
    rw [List.mapM_subtype (g := fun next => (parsePart d next.2).map fun ψ => (next.1, ψ))
      fun _ _ => rfl, List.unattach_attach]
    rfl

section Values
variable {truth : String → Truth}

@[simp] theorem Formula.value_leaf (text : String) : (Formula.leaf text).value truth = truth text :=
  rfl

theorem Formula.values_eq (items : List Formula) :
    Formula.values truth items = items.map (Formula.value truth) := by
  induction items with
  | nil => rfl
  | cons item rest ih => rw [Formula.values, ih, List.map_cons]

theorem Formula.value_group (op : Connective) (items : List Formula) :
    (Formula.group op items).value truth = op.fold (items.map (Formula.value truth)) := by
  rw [Formula.value, Formula.values_eq]

@[simp] theorem Connective.fold_single (op : Connective) (v : Truth) : op.fold [v] = v := by
  cases op <;> cases v <;> rfl

theorem alternatives_and {α : Type} (first : α) (others : List α) :
    alternatives first (others.map (Connective.and, ·)) = [first :: others] := by
  induction others generalizing first with
  | nil => rfl
  | cons next rest ih => simp only [List.map_cons, alternatives, ih]

theorem alternatives_or {α : Type} (first : α) (others : List α) :
    alternatives first (others.map (Connective.or, ·)) = (first :: others).map ([·]) := by
  induction others generalizing first with
  | nil => rfl
  | cons next rest ih => simp only [List.map_cons, alternatives, ih]

theorem Formula.value_ofParts (op : Connective) (φ : Formula) (others : List Formula) :
    (Formula.ofParts φ (others.map (op, ·))).value truth =
      op.fold ((φ :: others).map (Formula.value truth)) := by
  rw [Formula.ofParts, Formula.value_group]
  cases op with
  | and => rw [alternatives_and, List.map_singleton, List.map_singleton, Connective.fold_single,
      Formula.value_group]
  | or =>
    rw [alternatives_or, List.map_map, List.map_map]
    congr 1
    refine List.map_congr_left fun ψ _ => ?_
    simp [Formula.value_group]

end Values

def pass (l : Level) : List Lexeme → Option Level
  | [] => some l
  | x :: rest =>
    match l.turn x with
    | .on next => pass next rest
    | _ => none

section Passing
variable {l m : Level} {ls rest : List Lexeme}

theorem pass_append (ls rest : List Lexeme) (l : Level) :
    pass l (ls ++ rest) = (pass l ls).bind fun m => pass m rest := by
  induction ls generalizing l with
  | nil => rfl
  | cons x ls ih =>
    rw [List.cons_append, pass, pass]
    cases l.turn x with
    | on next => exact ih next
    | cut op => rfl
    | stuck => rfl

theorem cut_append (passes : pass l ls = some m) :
    cut l (ls ++ rest) = (cut m rest).map fun parts => (ls ++ parts.1, parts.2) := by
  induction ls generalizing l with
  | nil =>
    cases passes
    rw [List.nil_append]
    simp
  | cons x ls ih =>
    rw [pass] at passes
    rw [List.cons_append, cut]
    cases turn : l.turn x <;> simp only [turn, reduceCtorEq] at passes ⊢
    rw [ih passes, Option.map_map]
    rfl

theorem cut_of_pass (passes : pass {} ls = some {}) : cut {} ls = some (ls, []) := by
  have split : cut {} (ls ++ []) = _ := cut_append passes
  rw [List.append_nil] at split
  rw [split, cut]
  simp

end Passing

def Solid (ls : List Lexeme) : Prop :=
  (∃ x, ls.head? = some x ∧ isBlankLexeme x = false) ∧
    ∃ x, ls.getLast? = some x ∧ isBlankLexeme x = false

section Trimming
variable {ls : List Lexeme}

theorem dropWhile_of_head {x : Lexeme} (first : ls.head? = some x)
    (solid : isBlankLexeme x = false) : ls.dropWhile isBlankLexeme = ls := by
  cases ls with
  | nil => rfl
  | cons z rest =>
    obtain rfl : z = x := by simpa using first
    exact List.dropWhile_cons_of_neg (by simp [solid])

theorem Solid.trim_eq (solid : Solid ls) : trim ls = ls := by
  obtain ⟨⟨x, first, begins⟩, y, last, ends⟩ := solid
  rw [trim, dropWhile_of_head first begins, List.rdropWhile_eq_self_iff]
  intro full
  rw [List.getLast?_eq_some_getLast full, Option.some.injEq] at last
  simp [last, ends]

theorem trim_blank_cons {x : Lexeme} (blank : isBlankLexeme x = true) (ls : List Lexeme) :
    trim (x :: ls) = trim ls := by
  rw [trim, List.dropWhile_cons_of_pos blank, trim]

theorem Solid.trim_append_blank (solid : Solid ls) {x : Lexeme} (blank : isBlankLexeme x = true) :
    trim (ls ++ [x]) = ls := by
  have whole := solid.trim_eq
  obtain ⟨⟨y, first, begins⟩, -⟩ := solid
  have longer : (ls ++ [x]).head? = some y := by simp [List.head?_append, first]
  rw [trim, dropWhile_of_head first begins] at whole
  rw [trim, dropWhile_of_head longer begins, List.rdropWhile_concat_pos _ _ _ blank, whole]

end Trimming

section Parsing
variable {d : Dialect} {φ : Formula} {op : Connective} {ls inner part : List Lexeme}

theorem parsePart_enclosed (encloses : enclosed? (trim part) = some inner) :
    parsePart d part = parse d inner := by
  rw [parsePart]
  split
  · rename_i inner' found
    rw [encloses] at found
    cases found
    rfl
  · rename_i none
    rw [encloses] at none
    cases none

theorem parsePart_open (opens : enclosed? (trim part) = none) :
    parsePart d part = some (.leaf (spelled d (trim part))) := by
  rw [parsePart]
  split
  · rename_i inner' found
    rw [opens] at found
    cases found
  · rfl

theorem parsePart_congr {a b : List Lexeme} (same : trim a = trim b) :
    parsePart d a = parsePart d b := by
  cases encloses : enclosed? (trim b) with
  | some inner => rw [parsePart_enclosed encloses, parsePart_enclosed (same ▸ encloses)]
  | none => rw [parsePart_open encloses, parsePart_open (same ▸ encloses), same]

/-- A part of a condition that reads as a formula between any connectives. -/
structure ReadsAs (d : Dialect) (ls : List Lexeme) (φ : Formula) : Prop where
  passes : pass {} ls = some {}
  solid : Solid ls
  parsed : parsePart d ls = some φ

theorem ReadsAs.leaf (passes : pass {} ls = some {}) (solid : Solid ls)
    (opens : ls.head? ≠ some (.sign '(')) : ReadsAs d ls (.leaf (spelled d ls)) := by
  refine ⟨passes, solid, ?_⟩
  have bare : enclosed? (trim ls) = none := by
    rw [solid.trim_eq]
    by_contra closed
    obtain ⟨inner, encloses⟩ := Option.ne_none_iff_exists'.mp closed
    rw [enclosed?_eq_some encloses] at opens
    exact opens rfl
  rw [parsePart_open bare, solid.trim_eq]

theorem ReadsAs.enclosed (balanced : nest (inner.filterMap Lexeme.sign?) 0 = some 0)
    (passes : pass {} (Lexeme.sign '(' :: inner ++ [Lexeme.sign ')']) = some {})
    (parsed : parse d inner = some φ) :
    ReadsAs d (Lexeme.sign '(' :: inner ++ [Lexeme.sign ')']) φ := by
  have solid : Solid (Lexeme.sign '(' :: inner ++ [Lexeme.sign ')']) := by
    refine ⟨⟨.sign '(', rfl, rfl⟩, .sign ')', ?_, rfl⟩
    rw [List.getLast?_append]
    rfl
  have encloses : enclosed? (trim (Lexeme.sign '(' :: inner ++ [Lexeme.sign ')'])) = some inner := by
    rw [solid.trim_eq, enclosed?]
    simp [balanced]
  exact ⟨passes, solid, by rw [parsePart_enclosed encloses, parsed]⟩

theorem ReadsAs.parse_eq (reads : ReadsAs d ls φ) : parse d ls = some (.ofParts φ []) := by
  rw [parse_of_cut (cut_of_pass reads.passes), reads.parsed]
  rfl

def connector (op : Connective) : List Lexeme := [.sign ' ', .word op.keyword.toList, .sign ' ']

def chained (op : Connective) : List (List Lexeme) → List Lexeme
  | [] => []
  | [part] => part
  | part :: rest => part ++ (connector op ++ chained op rest)

theorem cut_connector (op : Connective) (rest : List Lexeme) :
    cut {} (connector op ++ rest) =
      (cut {} rest).map fun parts => ([.sign ' '], (op, .sign ' ' :: parts.1) :: parts.2) := by
  have blank : Level.turn {} (.sign ' ') = .on {} := rfl
  have ends : Level.turn {} (.word op.keyword.toList) = .cut op := by cases op <;> decide
  simp only [connector, List.cons_append, List.nil_append, cut, blank, ends, Option.map_map]
  rfl

theorem cut_chained (op : Connective) {rest : List (List Lexeme)}
    (each : ∀ p ∈ part :: rest, pass {} p = some {} ∧ Solid p) :
    ∃ first more, cut {} (chained op (part :: rest)) = some (first, more) ∧ trim first = part ∧
      more.map (Prod.map id trim) = rest.map (op, ·) := by
  induction rest generalizing part with
  | nil =>
    obtain ⟨passes, solid⟩ := each part List.mem_cons_self
    exact ⟨part, [], cut_of_pass passes, solid.trim_eq, rfl⟩
  | cons next rest ih =>
    obtain ⟨passes, solid⟩ := each part List.mem_cons_self
    obtain ⟨first, more, made, trimmed, others⟩ :=
      ih fun p member => each p (List.mem_cons_of_mem _ member)
    refine ⟨part ++ [Lexeme.sign ' '], (op, .sign ' ' :: first) :: more, ?_, ?_, ?_⟩
    · rw [chained, cut_append passes, cut_connector, made]
      rfl
      simp
    · exact solid.trim_append_blank rfl
    · rw [List.map_cons, others, Prod.map, trim_blank_cons rfl, trimmed]
      rfl

theorem mapM_parsePart {more : List (Connective × List Lexeme)}
    {rest : List (List Lexeme × Formula)}
    (listed : more.map (Prod.map id trim) = (rest.map Prod.fst).map (op, ·))
    (each : ∀ q ∈ rest, ReadsAs d q.1 q.2) :
    more.mapM (fun next => (parsePart d next.2).map fun ψ => (next.1, ψ)) =
      some ((rest.map Prod.snd).map (op, ·)) := by
  induction rest generalizing more with
  | nil =>
    obtain rfl : more = [] := by simpa using listed
    rfl
  | cons q rest ih =>
    cases more with
    | nil => simp at listed
    | cons next more =>
      simp only [List.map_cons, List.cons.injEq, Prod.map, id_eq, Prod.mk.injEq] at listed
      obtain ⟨⟨same, trimmed⟩, listed⟩ := listed
      have first := each q List.mem_cons_self
      have parsed : parsePart d next.2 = some q.2 := by
        rw [← first.parsed]
        exact parsePart_congr (trimmed.trans first.solid.trim_eq.symm)
      rw [List.mapM_cons, parsed, ih listed fun r member => each r (List.mem_cons_of_mem _ member),
        same]
      rfl

theorem parse_chained {p : List Lexeme × Formula} {rest : List (List Lexeme × Formula)}
    (each : ∀ q ∈ p :: rest, ReadsAs d q.1 q.2) :
    parse d (chained op ((p :: rest).map Prod.fst)) =
      some (.ofParts p.2 ((rest.map Prod.snd).map (op, ·))) := by
  have parts : ∀ part ∈ (p :: rest).map Prod.fst, pass {} part = some {} ∧ Solid part :=
    List.forall_mem_map.mpr fun q member => ⟨(each q member).passes, (each q member).solid⟩
  obtain ⟨first, more, made, trimmed, listed⟩ := cut_chained op parts
  have head := each p List.mem_cons_self
  have parsed : parsePart d first = some p.2 := by
    rw [← head.parsed]
    exact parsePart_congr (trimmed.trans head.solid.trim_eq.symm)
  have others := mapM_parsePart listed fun q member => each q (List.mem_cons_of_mem _ member)
  rw [List.map_cons, parse_of_cut made, parsed, others]
  rfl

end Parsing

end TypedSql
