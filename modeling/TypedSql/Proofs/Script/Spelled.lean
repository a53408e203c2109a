import TypedSql.Proofs.Script.Written

namespace TypedSql.Script
open Reader

/-- A text that begins with what ends a type, a target or a default value. -/
def Stops (text : List Char) : Prop :=
  ∃ c more, text = c :: more ∧ c ∈ [' ', '\t', '\r', '\n', ',', ')']

section Ends
variable {text : List Char} {c : Char}

theorem Stops.head (stops : Stops text) (member : c ∈ text.head?) :
    isWordRest c = false ∧ isDefaultChar c = false ∧ c ≠ '(' ∧ c ≠ '[' := by
  rcases stops with ⟨d, more, rfl, stop⟩
  obtain rfl : d = c := by simpa using member
  have each : ∀ d ∈ [' ', '\t', '\r', '\n', ',', ')'],
      isWordRest d = false ∧ isDefaultChar d = false ∧ d ≠ '(' ∧ d ≠ '[' :=
    List.forall_iff_forall_mem.mp (by decide)
  exact each d stop

theorem IsGap.stops {gap : List Char} (apart : IsGap gap) (text : List Char) :
    Stops (gap ++ text) := by
  rcases apart with ⟨full, each⟩
  cases gap with
  | nil => exact absurd rfl full
  | cons c gap =>
    have first : c ∈ [' ', '\t'] := each c List.mem_cons_self
    have wider : [' ', '\t'] ⊆ [' ', '\t', '\r', '\n', ',', ')'] := by decide
    exact ⟨c, gap ++ text, rfl, wider first⟩

theorem IsLayout.stops {layout : List Char} (laid : IsLayout layout) (mark : c ∈ [',', ')'])
    (text : List Char) : Stops (layout ++ c :: text) := by
  have wider : [',', ')'] ⊆ [' ', '\t', '\r', '\n', ',', ')'] := by decide
  cases laid with
  | nil => exact ⟨c, text, rfl, wider mark⟩
  | @blank d rest blank _ =>
    have wider' : [' ', '\t', '\r', '\n'] ⊆ [' ', '\t', '\r', '\n', ',', ')'] := by decide
    exact ⟨d, rest ++ c :: text, rfl, wider' blank⟩

end Ends

section Words
variable {cs rest : List Char}

theorem IsName.word (named : IsName cs) (ends : ∀ c ∈ rest.head?, isWordRest c = false) :
    Script.word (cs ++ rest) = some (cs, rest) := by
  rcases named with ⟨full, each⟩
  refine run1_append full (fun c member => ?_) ends
  rcases each c member with letter | underscore <;> simp [isWordRest, *]

theorem IsName.head (named : IsName cs) {c : Char} (member : c ∈ (cs ++ rest).head?) :
    isWordRest c = true := by
  rcases named with ⟨full, each⟩
  cases cs with
  | nil => exact absurd rfl full
  | cons d cs =>
    cases member
    rcases each c List.mem_cons_self with letter | underscore <;> simp [isWordRest, *]

theorem IsGap.gap (apart : IsGap cs) (ends : ∀ c ∈ rest.head?, isGap c = false) :
    Script.gap (cs ++ rest) = some (cs, rest) := by
  rcases apart with ⟨full, each⟩
  have both : [' ', '\t'].all isGap = true := by decide
  exact run1_append full (fun c member => List.all_eq_true.mp both c (each c member)) ends

theorem isGap_eq_false {p : Char → Bool} (both : p ' ' = true ∧ p '\t' = true) {c : Char}
    (apart : p c = false) : isGap c = false := by
  simp only [isGap, Bool.or_eq_false_iff, beq_eq_false_iff_ne]
  constructor <;> rintro rfl
  · exact Bool.noConfusion (both.1.symm.trans apart)
  · exact Bool.noConfusion (both.2.symm.trans apart)

theorem isGap_of_isWordRest {c : Char} (word : isWordRest c = true) : isGap c = false :=
  isGap_eq_false (p := fun c => !isWordRest c) (by decide) (by simpa using word)

theorem isLayout_of_isWordRest {c : Char} (word : isWordRest c = true) : isLayout c = false := by
  simp only [isLayout, isGap_of_isWordRest word, Bool.false_or, Bool.or_eq_false_iff,
    beq_eq_false_iff_ne]
  constructor <;> rintro rfl <;> cases word

theorem skipLayout_of_isWordRest {text : List Char} (first : ∀ c ∈ text.head?, isWordRest c = true) :
    skipLayout text = text := by
  cases text with
  | nil => rfl
  | cons c text =>
    have word := first c rfl
    apply skipLayout_solid (isLayout_of_isWordRest word)
    rintro rfl
    cases word

theorem IsDefault.run1 (valued : IsDefault cs) (stops : Stops rest) :
    Reader.run1 isDefaultChar (cs ++ rest) = some (cs, rest) := by
  rcases valued with ⟨full, each⟩
  refine run1_append full (fun c member => ?_) fun c member => (stops.head member).2.1
  simp [isDefaultChar, each c member]

theorem IsDefault.head (valued : IsDefault cs) {c : Char} (member : c ∈ (cs ++ rest).head?) :
    isGap c = false := by
  rcases valued with ⟨full, each⟩
  cases cs with
  | nil => exact absurd rfl full
  | cons d cs =>
    cases member
    exact isGap_eq_false (p := isBlank) (by decide) (each c List.mem_cons_self).1

end Words

def InSmallLetters (word : List Char) : Prop := ∀ k ∈ word, k.toLower = k ∧ k.toUpper.toLower = k

instance (word : List Char) : Decidable (InSmallLetters word) := List.decidableBAll _ word

section Keywords
variable {word cs text : List Char} {c k : Char}

theorem keyword_anyCase (given : AnyCase word cs) (small : InSmallLetters word)
    (more : List Char) :
    keyword (word ++ more) (cs ++ text) = keyword more text := by
  induction given with
  | nil => rfl
  | @cons k c word cs letter _ ih =>
    rcases List.forall_mem_cons.mp small with ⟨first, others⟩
    have same : c.toLower = k := by
      rcases letter with rfl | rfl
      · exact first.1
      · exact first.2
    rw [List.cons_append, List.cons_append, keyword, if_pos same, ih others]

theorem keyword_self (given : AnyCase word cs) (small : InSmallLetters word) :
    keyword word (cs ++ text) = some text := by
  have whole : keyword (word ++ []) (cs ++ text) = keyword [] text :=
    keyword_anyCase given small []
  rwa [List.append_nil] at whole

theorem keyword_none (first : word.head? = some k) (other : c.toLower ≠ k) :
    keyword word (c :: text) = none := by
  cases word with
  | nil => cases first
  | cons d word =>
    cases first
    rw [keyword, if_neg other]

theorem head_of_anyCase (given : AnyCase word cs) (first : word.head? = some k)
    (small : InSmallLetters word) (text : List Char) :
    (cs ++ text).head?.map Char.toLower = some k := by
  cases given with
  | nil => cases first
  | @cons k' c word cs letter _ =>
    cases first
    have both := small k List.mem_cons_self
    rcases letter with rfl | rfl
    · exact congrArg some both.1
    · exact congrArg some both.2

theorem isGap_of_toLower (other : isGap c.toLower = false) : isGap c = false :=
  isGap_eq_false (p := fun c => isGap c.toLower) (by decide) other

end Keywords

section Brackets
variable {inner : Reader (List Char)} {taken rest : List Char}

theorem orNothing_bracketed (read : inner (taken ++ ')' :: rest) = some (taken, ')' :: rest)) :
    orNothing (bracketed inner) ('(' :: taken ++ [')'] ++ rest) =
      ('(' :: taken ++ [')'], rest) := by
  simp [orNothing, bracketed, exactly, read]

theorem orNothing_none (other : '(' ∉ rest.head?) :
    orNothing (bracketed inner) rest = ([], rest) := by
  have none : exactly '(' rest = none := by
    cases rest with
    | nil => rfl
    | cons c rest =>
      have differs : c ≠ '(' := by simpa using other
      simp [exactly, differs]
  simp [orNothing, bracketed, none]

theorem IsType.read {cs : List Char} (typed : IsType cs) (stops : Stops rest) :
    columnType (cs ++ rest) = some (cs, rest) := by
  cases typed with
  | @mk name arguments mark named given marked =>
    have marks : arrayMark (mark ++ rest) = (mark, rest) := by
      rcases marked with rfl | rfl
      · refine arrayMark_of_ne fun more same => ?_
        exact (stops.head (c := '[') (by rw [← List.nil_append rest, same]; rfl)).2.2.2 rfl
      · rfl
    have ends : ∀ c ∈ (mark ++ rest).head?, isWordRest c = false ∧ c ≠ '(' := by
      intro c member
      rcases marked with rfl | rfl
      · exact ⟨(stops.head member).1, (stops.head member).2.2.1⟩
      · cases member
        decide
    rw [List.append_assoc, List.append_assoc]
    rcases given with rfl | ⟨inner, full, open', rfl⟩
    · have none : orNothing (bracketed (Reader.run1 (· != ')'))) (mark ++ rest) = ([], mark ++ rest) :=
        orNothing_none fun member => (ends '(' member).2 rfl
      have name' := named.word fun c member => (ends c member).1
      simp [columnType, name', none, marks]
    · have whole : Reader.run1 (· != ')') (inner ++ ')' :: (mark ++ rest)) =
          some (inner, ')' :: (mark ++ rest)) := by
        refine run1_append full (fun c member => ?_) (by simp)
        have differs : c ≠ ')' := fun same => open' (same ▸ member)
        simpa using differs
      have arguments := orNothing_bracketed whole
      have name' : Script.word (name ++ ('(' :: inner ++ [')'] ++ (mark ++ rest))) = _ :=
        named.word (by simp; decide)
      simp only [columnType, name', Option.bind_eq_bind, Option.bind_some, arguments, marks]

theorem IsType.head {cs : List Char} (typed : IsType cs) {c : Char}
    (member : c ∈ (cs ++ rest).head?) : isGap c = false := by
  cases typed with
  | mk named given marked =>
    rw [List.append_assoc, List.append_assoc] at member
    exact isGap_of_isWordRest (named.head member)

theorem IsTarget.read {cs : List Char} (targeted : IsTarget cs) (stops : Stops rest) :
    referenceTarget (cs ++ rest) = some (cs, rest) := by
  cases targeted with
  | @mk table column named given =>
    rw [List.append_assoc]
    rcases given with rfl | ⟨inner, named', rfl⟩
    · have none : orNothing (bracketed Script.word) rest = ([], rest) :=
        orNothing_none fun member => (stops.head member).2.2.1 rfl
      have table' := named.word fun c member => (stops.head member).1
      simp [referenceTarget, table', none]
    · have whole : Script.word (inner ++ ')' :: rest) = _ := named'.word (by simp; decide)
      have column := orNothing_bracketed whole
      have table' : Script.word (table ++ ('(' :: inner ++ [')'] ++ rest)) = _ :=
        named.word (by simp; decide)
      simp only [referenceTarget, table', Option.bind_eq_bind, Option.bind_some, column]

theorem IsTarget.head {cs : List Char} (targeted : IsTarget cs) {c : Char}
    (member : c ∈ (cs ++ rest).head?) : isGap c = false := by
  cases targeted with
  | mk named given =>
    rw [List.append_assoc] at member
    exact isGap_of_isWordRest (named.head member)

end Brackets

section Constraints
variable {text rest : List Char} {c k : Char} {x : Constraint}

theorem spelled_none {joined first second : String} (first' : joined.toList.head? = some k)
    (first'' : first.toList.head? = some k) (other : c.toLower ≠ k) :
    spelled joined first second x (c :: text) = none := by
  simp [spelled, keywordPair, keyword_none first' other, keyword_none first'' other]

theorem keyed_none {name : String} {argument : Reader (List Char)} {make : String → Constraint}
    (first : name.toList.head? = some k) (other : c.toLower ≠ k) :
    keyed name argument make (c :: text) = none := by
  simp [keyed, keyword_none first other]

theorem constraint_eq (begins : text.head?.map Char.toLower = some k) :
    constraint text =
      if k = 'p' then spelled "primary_key" "primary" "key" .primaryKey text
      else if k = 'n' then spelled "not_null" "not" "null" .notNull text
      else if k = 'u' then
        (keyword "unique".toList text).map fun rest => (Constraint.unique, rest)
      else if k = 'r' then keyed "references" referenceTarget .references text
      else if k = 'd' then keyed "default" (Reader.run1 isDefaultChar) .default text
      else none := by
  rcases Option.map_eq_some_iff.mp begins with ⟨c, first, rfl⟩
  rcases List.head?_eq_some_iff.mp first with ⟨text, rfl⟩
  have primary (other : c.toLower ≠ 'p') :
      spelled "primary_key" "primary" "key" .primaryKey (c :: text) = none :=
    spelled_none rfl rfl other
  have notNull (other : c.toLower ≠ 'n') :
      spelled "not_null" "not" "null" .notNull (c :: text) = none := spelled_none rfl rfl other
  have unique (other : c.toLower ≠ 'u') :
      (keyword "unique".toList (c :: text)).map (fun rest => (Constraint.unique, rest)) = none := by
    rw [keyword_none rfl other, Option.map_none]
  have references (other : c.toLower ≠ 'r') :
      keyed "references" referenceTarget .references (c :: text) = none := keyed_none rfl other
  have default (other : c.toLower ≠ 'd') :
      keyed "default" (Reader.run1 isDefaultChar) .default (c :: text) = none :=
    keyed_none rfl other
  unfold constraint
  split_ifs with isP isN isU isR isD
  · simp only [notNull, unique, references, default, isP, Option.or_none, ne_eq, Char.reduceEq,
      not_false_eq_true]
  · simp only [primary isP, unique, references, default, isN, Option.or_none, Option.none_or, ne_eq,
      Char.reduceEq, not_false_eq_true]
  · simp only [primary isP, notNull isN, references, default, isU, Option.or_none, Option.none_or,
      ne_eq, Char.reduceEq, not_false_eq_true]
  · simp only [primary isP, notNull isN, unique isU, default, isR, Option.or_none, Option.none_or,
      ne_eq, Char.reduceEq, not_false_eq_true]
  · simp only [primary isP, notNull isN, unique isU, references isR, Option.none_or]
  · simp only [primary isP, notNull isN, unique isU, references isR, default isD, Option.none_or]

theorem spelled_joined {joined first second : String} {cs : List Char}
    (given : AnyCase joined.toList cs) (small : InSmallLetters joined.toList) :
    spelled joined first second x (cs ++ rest) = some (x, rest) := by
  rw [spelled, keyword_self given small, Option.some_or, Option.map_some]

theorem spelled_apart {joined first second : String} {cs gap cs' : List Char}
    (prefixed : joined.toList = first.toList ++ '_' :: second.toList)
    (given : AnyCase first.toList cs) (apart : IsGap gap) (given' : AnyCase second.toList cs')
    (smallFirst : InSmallLetters first.toList) (smallSecond : InSmallLetters second.toList)
    (letter : second.toList.head? = some k) (solid : isGap k = false) :
    spelled joined first second x (cs ++ gap ++ cs' ++ rest) = some (x, rest) := by
  have ends : ∀ c ∈ (cs' ++ rest).head?, isGap c = false := by
    intro c member
    have lower := head_of_anyCase given' letter smallSecond rest
    rw [Option.mem_def.mp member, Option.map_some, Option.some.injEq] at lower
    exact isGap_of_toLower (lower ▸ solid)
  -- the joined spelling goes on with an underscore where the gap is
  have other : keyword joined.toList (cs ++ (gap ++ (cs' ++ rest))) = none := by
    rw [prefixed, keyword_anyCase given smallFirst]
    rcases apart with ⟨full, each⟩
    cases gap with
    | nil => exact absurd rfl full
    | cons d gap =>
      have two : ∀ d ∈ [' ', '\t'], d.toLower ≠ '_' := List.forall_iff_forall_mem.mp (by decide)
      exact keyword_none rfl (two d (each d List.mem_cons_self))
  have first' : keyword first.toList (cs ++ (gap ++ (cs' ++ rest))) = some (gap ++ (cs' ++ rest)) :=
    keyword_self given smallFirst
  have second' : keyword second.toList (cs' ++ rest) = some rest := keyword_self given' smallSecond
  simp only [List.append_assoc, spelled, other, Option.none_or, keywordPair, first',
    Option.bind_eq_bind, Option.bind_some, apart.gap ends, second', Option.map_some]

theorem keyed_read (make : String → Constraint) {name : String} {argument : Reader (List Char)}
    {cs gap taken : List Char} (given : AnyCase name.toList cs)
    (small : InSmallLetters name.toList) (apart : IsGap gap)
    (ends : ∀ c ∈ (taken ++ rest).head?, isGap c = false)
    (read : argument (taken ++ rest) = some (taken, rest)) :
    keyed name argument make (cs ++ gap ++ taken ++ rest) = some (make (String.ofList taken), rest) := by
  have name' : keyword name.toList (cs ++ (gap ++ (taken ++ rest))) = some (gap ++ (taken ++ rest)) :=
    keyword_self given small
  simp only [List.append_assoc, keyed, name', Option.bind_eq_bind, Option.bind_some,
    apart.gap ends, read]

/-- A constraint is read from each of its spellings. -/
theorem Spells.read {cs : List Char} (spells : Spells x cs) (stops : Stops rest) :
    constraint (cs ++ rest) = some (x, rest) := by
  cases spells with
  | primaryKey joined =>
    rw [constraint_eq (head_of_anyCase joined rfl (by decide) _)]
    exact spelled_joined joined (by decide)
  | primaryKeyApart primary apart key =>
    have begins := head_of_anyCase primary rfl (by decide)
    rw [constraint_eq (by rw [List.append_assoc, List.append_assoc]; exact begins _)]
    exact spelled_apart rfl primary apart key (by decide) (by decide) rfl (by decide)
  | notNull joined =>
    rw [constraint_eq (head_of_anyCase joined rfl (by decide) _)]
    exact spelled_joined joined (by decide)
  | notNullApart not apart null =>
    have begins := head_of_anyCase not rfl (by decide)
    rw [constraint_eq (by rw [List.append_assoc, List.append_assoc]; exact begins _)]
    exact spelled_apart rfl not apart null (by decide) (by decide) rfl (by decide)
  | unique unique =>
    rw [constraint_eq (head_of_anyCase unique rfl (by decide) _)]
    simp only [keyword_self unique (by decide)]
    rfl
  | @references word gap target references apart targeted =>
    have begins := head_of_anyCase references rfl (by decide)
    have read := keyed_read .references references (by decide) apart
      (fun c member => targeted.head member) (targeted.read stops)
    rw [String.ofList_toList] at read
    rw [constraint_eq (by rw [List.append_assoc, List.append_assoc]; exact begins _)]
    exact read
  | @default word gap value default apart valued =>
    have begins := head_of_anyCase default rfl (by decide)
    have read := keyed_read .default default (by decide) apart
      (fun c member => valued.head member) (valued.run1 stops)
    rw [String.ofList_toList] at read
    rw [constraint_eq (by rw [List.append_assoc, List.append_assoc]; exact begins _)]
    exact read

end Constraints
end TypedSql.Script
