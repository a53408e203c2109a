import TypedSql.Proofs.Sql.Lexeme

namespace TypedSql

inductive Item where
  | operand (text : List Lexeme)
  | operator (symbol : String)
  | blank
  deriving DecidableEq

def isOperatorSign (c : Char) : Bool := "+-*/<>=~!#%^&|".toList.contains c

def isOperatorWord (w : List Char) : Bool :=
  ["NOT".toList, "LIKE".toList, "ILIKE".toList].contains (w.map Char.toUpper)

def Lexeme.item : Lexeme → Item
  | .sign c =>
    if c.isWhitespace then .blank
    else if isOperatorSign c then .operator (String.singleton c)
    else .operand [.sign c]
  | .word w => if isOperatorWord w then .operator (String.ofList w) else .operand [.word w]
  | x => .operand [x]

def Item.push : Item → List Item → List Item
  | .operand a, .operand b :: rest => .operand (a ++ b) :: rest
  | .operator a, .operator b :: rest => .operator (a ++ b) :: rest
  | .blank, .blank :: rest => .blank :: rest
  | item, rest => item :: rest

/-- The items of a text; what stands in brackets belongs to an operand. -/
def items (depth : Nat) : List Lexeme → List Item
  | [] => []
  | .sign '(' :: rest => (Item.operand [.sign '(']).push (items (depth + 1) rest)
  | .sign ')' :: rest => (Item.operand [.sign ')']).push (items (depth - 1) rest)
  | x :: rest => (if depth = 0 then x.item else .operand [x]).push (items depth rest)

def settle : List Item → List Item
  | [] => []
  | .blank :: rest => settle rest
  | .operand text :: rest => .operand text :: settle rest
  | .operator a :: rest =>
    match settle rest with
    | .operator b :: more => .operator (a ++ " " ++ b) :: more
    | more => .operator a :: more

def isPatternOperator (symbol : String) : Bool :=
  ["LIKE", "NOT LIKE", "ILIKE", "NOT ILIKE"].contains symbol

def isOperator (symbol : String) : Bool :=
  isPatternOperator symbol || symbol.toList.all isOperatorSign

/-- How tightly an operator binds: products, sums, every other operator, patterns, comparisons. -/
def strength (symbol : String) : Nat :=
  if ["*", "/", "%"].contains symbol then 4
  else if ["+", "-"].contains symbol then 3
  else if isPatternOperator symbol then 1
  else if ["<", ">", "=", "<=", ">=", "<>", "!="].contains symbol then 0
  else 2

/-- An expression as far as its operators go. -/
inductive Grouping where
  | operand (text : List Lexeme)
  | apply (symbol : String) (left right : Grouping)
  deriving DecidableEq

namespace Grouping

/-- One more operator with its right operand. It takes what binds no looser than itself. -/
def extend : Grouping → String → List Lexeme → Grouping
  | .operand x, symbol, y => .apply symbol (.operand x) (.operand y)
  | .apply first left right, symbol, y =>
    if strength symbol ≤ strength first then .apply symbol (.apply first left right) (.operand y)
    else .apply first left (right.extend symbol y)

def extendAll (g : Grouping) (rest : List (String × List Lexeme)) : Grouping :=
  rest.foldl (fun g next => g.extend next.1 next.2) g

def flatten : Grouping → List Item
  | .operand text => [.operand text]
  | .apply symbol left right => left.flatten ++ .operator symbol :: right.flatten

def operators : Grouping → List String
  | .operand _ => []
  | .apply symbol left right => left.operators ++ symbol :: right.operators

/-- That every operator takes what binds tighter, and on its left what binds as tightly. -/
def Respects : Grouping → Prop
  | .operand _ => True
  | .apply symbol left right => isOperator symbol = true ∧ left.Respects ∧ right.Respects ∧
      (∀ other ∈ left.operators, strength symbol ≤ strength other) ∧
      ∀ other ∈ right.operators, strength symbol < strength other

end Grouping

def chain : List Item → Option (List Lexeme × List (String × List Lexeme))
  | [.operand x] => some (x, [])
  | .operand x :: .operator symbol :: rest =>
    if isOperator symbol then (chain rest).map fun parts => (x, (symbol, parts.1) :: parts.2)
    else none
  | _ => none

def group (ls : List Lexeme) : Option Grouping :=
  (chain (settle (items 0 ls))).map fun parts => (Grouping.operand parts.1).extendAll parts.2

namespace Grouping
variable {g h : Grouping} {symbol : String} {x y : List Lexeme}

@[simp] theorem flatten_extend :
    (g.extend symbol y).flatten = g.flatten ++ [.operator symbol, .operand y] := by
  induction g with
  | operand x => rfl
  | apply first left right _ ih =>
    unfold extend
    split
    · simp [flatten]
    · simp [flatten, ih]

theorem mem_operators_extend {other : String} :
    other ∈ (g.extend symbol y).operators ↔ other ∈ g.operators ∨ other = symbol := by
  induction g with
  | operand x => simp [extend, operators]
  | apply first left right _ ih =>
    unfold extend
    split
    · simp [operators]
      tauto
    · simp [operators, ih]
      tauto

theorem Respects.extend (respects : g.Respects) (known : isOperator symbol = true) :
    (g.extend symbol y).Respects := by
  induction g with
  | operand x => simp [Grouping.extend, Respects, known, operators]
  | apply first left right _ ih =>
    obtain ⟨operator, leftRespects, rightRespects, looser, tighter⟩ := respects
    unfold Grouping.extend
    split
    · rename_i weaker
      refine ⟨known, ⟨operator, leftRespects, rightRespects, looser, tighter⟩, trivial, ?_,
        by simp [operators]⟩
      intro other member
      simp only [operators, List.mem_append, List.mem_cons] at member
      rcases member with member | rfl | member
      · exact weaker.trans (looser other member)
      · exact weaker
      · exact weaker.trans (tighter other member).le
    · rename_i stronger
      refine ⟨operator, leftRespects, ih rightRespects, looser, fun other member => ?_⟩
      rcases mem_operators_extend.mp member with member | rfl
      · exact tighter other member
      · exact not_le.mp stronger

theorem extend_eq_apply (looser : ∀ other ∈ g.operators, strength symbol ≤ strength other) :
    g.extend symbol y = .apply symbol g (.operand y) := by
  cases g with
  | operand x => rfl
  | apply first left right => rw [extend, if_pos (looser first (by simp [operators]))]

@[simp] theorem length_operators_extend :
    (g.extend symbol y).operators.length = g.operators.length + 1 := by
  induction g with
  | operand x => rfl
  | apply first left right _ ih =>
    unfold extend
    split
    · simp [operators]
      omega
    · simp [operators, ih]
      omega

theorem Respects.exists_extend (respects : g.Respects) :
    (∃ x, g = .operand x) ∨ ∃ (h : Grouping) (symbol : String) (y : List Lexeme),
      h.Respects ∧ isOperator symbol = true ∧ symbol ∈ g.operators ∧ h.extend symbol y = g := by
  induction g with
  | operand x => exact .inl ⟨x, rfl⟩
  | apply first left right _ ih =>
    obtain ⟨operator, leftRespects, rightRespects, looser, tighter⟩ := respects
    refine .inr ?_
    rcases ih rightRespects with ⟨x, rfl⟩ | ⟨h, symbol, y, hRespects, known, member, rfl⟩
    · exact ⟨left, first, x, leftRespects, operator, by simp [operators], extend_eq_apply looser⟩
    · have stronger : strength first < strength symbol := tighter symbol member
      have before : (apply first left h).Respects :=
        ⟨operator, leftRespects, hRespects, looser, fun other inside =>
          tighter other (mem_operators_extend.mpr (.inl inside))⟩
      refine ⟨.apply first left h, symbol, y, before, known, by simp [operators, member], ?_⟩
      rw [Grouping.extend, if_neg (not_le.mpr stronger)]

def step (next : String × List Lexeme) : List Item := [.operator next.1, .operand next.2]

theorem flatten_extendAll (g : Grouping) (rest : List (String × List Lexeme)) :
    (g.extendAll rest).flatten = g.flatten ++ rest.flatMap step := by
  induction rest generalizing g with
  | nil => simp [extendAll]
  | cons next rest ih =>
    have split : g.extendAll (next :: rest) = (g.extend next.1 next.2).extendAll rest := rfl
    simp [split, ih, step]

theorem Respects.extendAll (respects : g.Respects) {rest : List (String × List Lexeme)}
    (known : ∀ next ∈ rest, isOperator next.1 = true) : (g.extendAll rest).Respects := by
  induction rest generalizing g with
  | nil => exact respects
  | cons next rest ih =>
    obtain ⟨first, more⟩ := List.forall_mem_cons.mp known
    exact ih (respects.extend first) more

theorem Respects.exists_extendAll (respects : g.Respects) :
    ∃ x rest, (∀ next ∈ rest, isOperator next.1 = true) ∧ (operand x).extendAll rest = g := by
  induction size : g.operators.length generalizing g with
  | zero =>
    cases g with
    | operand x => exact ⟨x, [], by simp, rfl⟩
    | apply => simp [operators] at size
  | succ n ih =>
    rcases respects.exists_extend with ⟨x, rfl⟩ | ⟨h, symbol, y, before, known, -, rfl⟩
    · simp [operators] at size
    · obtain ⟨x, rest, others, rfl⟩ := ih before (by simpa using size)
      have all : ∀ next ∈ rest ++ [(symbol, y)], isOperator next.1 = true :=
        List.forall_mem_append.mpr ⟨others, List.forall_mem_singleton.mpr known⟩
      refine ⟨x, rest ++ [(symbol, y)], all, ?_⟩
      rw [Grouping.extendAll, List.foldl_append]
      rfl

end Grouping

theorem chain_eq_some_iff {is : List Item} {x : List Lexeme} {rest : List (String × List Lexeme)} :
    chain is = some (x, rest) ↔
      is = .operand x :: rest.flatMap Grouping.step ∧ ∀ next ∈ rest, isOperator next.1 = true := by
  induction rest generalizing is x with
  | nil =>
    constructor
    · intro read
      unfold chain at read
      split at read
      · simp_all
      · split at read <;> simp at read
      · cases read
    · rintro ⟨rfl, -⟩
      rfl
  | cons next rest ih =>
    constructor
    · intro read
      unfold chain at read
      split at read
      · simp at read
      · split at read
        · rename_i known
          obtain ⟨⟨y, more⟩, found, same⟩ := Option.map_eq_some_iff.mp read
          cases same
          obtain ⟨rfl, others⟩ := ih.mp found
          exact ⟨rfl, List.forall_mem_cons.mpr ⟨known, others⟩⟩
        · cases read
      · cases read
    · rintro ⟨rfl, known⟩
      obtain ⟨first, others⟩ := List.forall_mem_cons.mp known
      have found : chain (.operand next.2 :: rest.flatMap Grouping.step) = some (next.2, rest) :=
        ih.mpr ⟨rfl, others⟩
      simp [Grouping.step, chain, first, found]

/-- The reader finds the one grouping of the text that respects the operators. -/
theorem group_eq_some_iff {ls : List Lexeme} {g : Grouping} :
    group ls = some g ↔ g.Respects ∧ g.flatten = settle (items 0 ls) := by
  simp only [group, Option.map_eq_some_iff, Prod.exists, chain_eq_some_iff]
  constructor
  · rintro ⟨x, rest, ⟨read, known⟩, rfl⟩
    have single : (Grouping.operand x).Respects := trivial
    exact ⟨single.extendAll known, by rw [Grouping.flatten_extendAll, read]; rfl⟩
  · rintro ⟨respects, flat⟩
    obtain ⟨x, rest, known, rfl⟩ := respects.exists_extendAll
    rw [Grouping.flatten_extendAll] at flat
    exact ⟨x, rest, ⟨flat.symm, known⟩, rfl⟩

def leadsOperand : List Item → Bool
  | .operand _ :: _ => true
  | _ => false

/-- That text reads as a grouping in front of whatever is no operand. -/
def Grouping.Reads (g : Grouping) (ls : List Lexeme) : Prop :=
  ∀ rest, leadsOperand (items 0 rest) = false →
    leadsOperand (items 0 (ls ++ rest)) = true ∧
      settle (items 0 (ls ++ rest)) = g.flatten ++ settle (items 0 rest)

def Operates (symbol : String) (ls : List Lexeme) : Prop :=
  ∀ rest, leadsOperand (items 0 rest) = true →
    leadsOperand (items 0 (ls ++ rest)) = false ∧
      settle (items 0 (ls ++ rest)) = .operator symbol :: settle (items 0 rest)

def Lexeme.isOperand : Lexeme → Bool
  | .word w => !isOperatorWord w
  | .sign c => !c.isWhitespace && !isOperatorSign c && c != '(' && c != ')'
  | _ => true

section Reading
variable {ls rest : List Lexeme} {g h : Grouping} {symbol : String}

theorem items_operand {x : Lexeme} (operand : x.isOperand = true) :
    items 0 (x :: rest) = (Item.operand [x]).push (items 0 rest) := by
  have itself : x.item = .operand [x] := by
    cases x <;> simp_all [Lexeme.item, Lexeme.isOperand]
  rw [items, if_pos rfl, itself]
  · rintro rfl
    simp [Lexeme.isOperand] at operand
  · rintro rfl
    simp [Lexeme.isOperand] at operand

theorem items_operands (some : ls ≠ []) (operands : ∀ x ∈ ls, x.isOperand = true)
    (apart : leadsOperand (items 0 rest) = false) :
    items 0 (ls ++ rest) = .operand ls :: items 0 rest := by
  induction ls with
  | nil => exact absurd rfl some
  | cons x ls ih =>
    obtain ⟨first, others⟩ := List.forall_mem_cons.mp operands
    rw [List.cons_append, items_operand first]
    cases ls with
    | nil =>
      rw [List.nil_append]
      cases found : items 0 rest with
      | nil => rfl
      | cons i is => cases i <;> simp_all [Item.push, leadsOperand]
    | cons y ls =>
      rw [ih (by simp) others]
      rfl

theorem items_append (flat : ls.all (fun x => x != .sign '(' && x != .sign ')') = true) :
    items 0 (ls ++ rest) = (ls.map Lexeme.item).foldr Item.push (items 0 rest) := by
  induction ls with
  | nil => rfl
  | cons x ls ih =>
    simp only [List.all_cons, Bool.and_eq_true, bne_iff_ne] at flat
    obtain ⟨⟨opening, closing⟩, others⟩ := flat
    rw [List.cons_append, items, if_pos rfl, ih others]
    · rfl
    · exact opening
    · exact closing

theorem Operates.of_items (flat : ls.all (fun x => x != .sign '(' && x != .sign ')') = true)
    (operator : ∀ text more,
      let is := (ls.map Lexeme.item).foldr Item.push (.operand text :: more)
      leadsOperand is = false ∧ settle is = .operator symbol :: .operand text :: settle more) :
    Operates symbol ls := by
  intro rest operand
  rw [items_append flat]
  cases found : items 0 rest with
  | nil => simp [found, leadsOperand] at operand
  | cons i more =>
    cases i with
    | operand text => exact operator text more
    | _ => simp [found, leadsOperand] at operand

theorem Grouping.Reads.operand (some : ls ≠ []) (operands : ∀ x ∈ ls, x.isOperand = true) :
    (Grouping.operand ls).Reads ls := by
  intro rest apart
  rw [items_operands some operands apart]
  exact ⟨rfl, rfl⟩

theorem Grouping.Reads.apply {op right : List Lexeme} (left : g.Reads ls)
    (operates : Operates symbol op) (follows : h.Reads right) :
    (Grouping.apply symbol g h).Reads (ls ++ (op ++ right)) := by
  intro rest apart
  obtain ⟨operand, read⟩ := follows rest apart
  obtain ⟨operator, between⟩ := operates (right ++ rest) operand
  obtain ⟨first, whole⟩ := left (op ++ (right ++ rest)) operator
  rw [List.append_assoc, List.append_assoc]
  exact ⟨first, by rw [whole, between, read]; simp [flatten]⟩

theorem Grouping.Reads.extend {op right : List Lexeme} (left : g.Reads ls)
    (operates : Operates symbol op) (follows : (Grouping.operand right).Reads right) :
    (g.extend symbol right).Reads (ls ++ (op ++ right)) := by
  intro rest apart
  obtain ⟨first, whole⟩ := left.apply operates follows rest apart
  exact ⟨first, by rw [whole, flatten_extend]; rfl⟩

theorem Grouping.Reads.group_eq (reads : g.Reads ls) (respects : g.Respects) :
    group ls = some g := by
  obtain ⟨-, read⟩ := reads [] rfl
  rw [List.append_nil] at read
  exact group_eq_some_iff.mpr ⟨respects, by rw [read]; simp [items, settle]⟩

end Reading

end TypedSql
