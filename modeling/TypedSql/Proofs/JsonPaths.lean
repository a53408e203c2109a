import TypedSql.Proofs.Letters
import TypedSql.Proofs.Script.Reading
import TypedSql.Proofs.Sql.Hole
import TypedSql.Proofs.Sql.Move
import TypedSql.Proofs.Text.Quoted

namespace TypedSql

/-- A step of a path: to the member of an object by its key, or to an element of an array. -/
inductive PathStep where
  | member (key : String)
  | element (index : Nat)
  deriving DecidableEq

def PathSegment.step : PathSegment → PathStep
  | .key gated => .member gated.name
  | .index place => .element place.toNat

theorem PathSegment.step_injective : Function.Injective PathSegment.step := by
  rintro (⟨key, admitted⟩ | index) (⟨key', admitted'⟩ | index') same
  · simp_all [step]
  · cases same
  · cases same
  · simp only [step, PathStep.element.injEq] at same
    rw [UInt32.toNat_inj.mp same]

/-- A step with what it yields: text, or else JSON. -/
structure PathHop (α : Type) where
  step : α
  asText : Bool
  deriving DecidableEq

/-- The hops of a path. Those before the last one yield JSON. -/
def hopsTo {α : Type} (asText : Bool) : List α → List (PathHop α)
  | [] => []
  | [last] => [⟨last, asText⟩]
  | step :: rest => ⟨step, false⟩ :: hopsTo asText rest

section Hops
variable {α β : Type} (asText : Bool)

theorem hopsTo_cons (step next : α) (rest : List α) :
    hopsTo asText (step :: next :: rest) = ⟨step, false⟩ :: hopsTo asText (next :: rest) := rfl

theorem map_step_hopsTo (f : α → β) (steps : List α) :
    (hopsTo asText steps).map (fun hop => (⟨f hop.step, hop.asText⟩ : PathHop β)) =
      hopsTo asText (steps.map f) := by
  fun_induction hopsTo asText steps with
  | case1 => rfl
  | case2 => rfl
  | case3 step rest more ih =>
    obtain ⟨next, rest, rfl⟩ := List.exists_cons_of_ne_nil more
    rw [List.map_cons, ih]
    rfl

theorem steps_hopsTo (steps : List α) : (hopsTo asText steps).map (·.step) = steps := by
  fun_induction hopsTo asText steps with
  | case1 => rfl
  | case2 => rfl
  | case3 step rest more ih => rw [List.map_cons, ih]

theorem asText_hopsTo {steps : List α} (some : steps ≠ []) :
    (hopsTo asText steps).map (·.asText) = List.replicate (steps.length - 1) false ++ [asText] := by
  fun_induction hopsTo asText steps with
  | case1 => exact absurd rfl some
  | case2 => rfl
  | case3 step rest more ih =>
    obtain ⟨next, rest, rfl⟩ := List.exists_cons_of_ne_nil more
    rw [List.map_cons, ih more]
    rfl

end Hops

/-- The operator of a hop. The longer one is taken where it stands. -/
def readArrow : Reader Bool
  | '-' :: '>' :: '>' :: rest => some (true, rest)
  | '-' :: '>' :: rest => some (false, rest)
  | _ => none

def readDigits : Reader Nat := fun text => do
  let (digits, rest) ← Reader.run1 Char.isDigit text
  some (Nat.ofDigitChars 10 digits 0, rest)

def readOperand : Reader PathStep
  | '\x27' :: rest => do
    let (key, rest) ← readQuoted '\x27' none rest
    some (.member (String.ofList key), rest)
  | text => do
    let (index, rest) ← readDigits text
    some (.element index, rest)

def readHop : Reader (PathHop PathStep) := fun text => do
  let (asText, rest) ← readArrow text
  let (step, rest) ← readOperand rest
  some (⟨step, asText⟩, rest)

def isKeyCharacter (c : Char) : Bool := isWordRest c || c == '$'

/-- A leg of a path inside a literal. Wildcards, ranges and keys in double quotes, which the full
    syntax has, are refused. -/
def readLeg : Reader PathStep
  | '.' :: rest => do
    let (key, rest) ← Reader.run1 isKeyCharacter rest
    if key.head?.any Char.isDigit then none else some (.member (String.ofList key), rest)
  | '[' :: rest => do
    let (index, rest) ← readDigits rest
    let rest ← Reader.exactly ']' rest
    some (.element index, rest)
  | _ => none

namespace Dialect

/-- The hops of a path that makes up all of a text. PostgreSQL has an operator for each of them,
    and MySQL a single one for a literal that starts at the document's root. -/
def readPath (d : Dialect) (text : List Char) : Option (List (PathHop PathStep)) :=
  match d with
  | .mySql => do
    let (asText, rest) ← readArrow text
    let rest ← Reader.exactly '\x27' rest
    let (inside, after) ← readQuoted '\x27' d.escape? rest
    let legs ← Reader.exactly '$' inside
    let (steps, more) := Reader.many readLeg legs
    if after = [] ∧ more = [] then some (hopsTo asText steps) else none
  | _ =>
    let (hops, more) := Reader.many readHop text
    if more = [] then some hops else none

end Dialect

section Takes
open Reader (Takes)

theorem readArrow_takes : Takes readArrow := by
  intro text asText rest read
  unfold readArrow at read
  split at read <;> cases read
  · exact ⟨['-', '>', '>'], by simp, rfl⟩
  · exact ⟨['-', '>'], by simp, rfl⟩

theorem readDigits_takes : Takes readDigits := by
  intro text index rest read
  obtain ⟨digits, run, same⟩ := Option.bind_eq_some_iff.mp read
  cases same
  exact Reader.run1_takes run

theorem Reader.Takes.after {α : Type} {reader : Reader α} (takes : reader.Takes)
    {text rest : List Char} {a : α} (read : reader text = some (a, rest)) (front : List Char) :
    ∃ taken, taken ≠ [] ∧ front ++ text = taken ++ rest := by
  obtain ⟨taken, some, rfl⟩ := takes read
  exact ⟨front ++ taken, by simp [some], by rw [List.append_assoc]⟩

theorem readOperand_takes : Takes readOperand := by
  intro text step rest read
  unfold readOperand at read
  split at read
  · obtain ⟨key, found, same⟩ := Option.bind_eq_some_iff.mp read
    cases same
    obtain ⟨taken, split⟩ := readQuoted_suffix found
    exact ⟨'\x27' :: taken, by simp, by rw [List.cons_append, split]⟩
  · obtain ⟨index, found, same⟩ := Option.bind_eq_some_iff.mp read
    cases same
    exact readDigits_takes found

theorem readHop_takes : Takes readHop := by
  intro text hop rest read
  obtain ⟨⟨asText, operand⟩, arrow, read⟩ := Option.bind_eq_some_iff.mp read
  obtain ⟨step, found, same⟩ := Option.bind_eq_some_iff.mp read
  cases same
  obtain ⟨front, -, rfl⟩ := readArrow_takes arrow
  exact readOperand_takes.after found front

theorem readLeg_takes : Takes readLeg := by
  intro text step rest read
  unfold readLeg at read
  split at read
  · obtain ⟨⟨key, after⟩, run, read⟩ := Option.bind_eq_some_iff.mp read
    dsimp only at read
    split at read <;> cases read
    exact Reader.run1_takes.after run ['.']
  · obtain ⟨⟨index, after⟩, found, read⟩ := Option.bind_eq_some_iff.mp read
    obtain ⟨_, closed, same⟩ := Option.bind_eq_some_iff.mp read
    cases same
    obtain ⟨digits, -, rfl⟩ := readDigits_takes found
    rw [Reader.exactly_eq_some.mp closed]
    exact ⟨'[' :: (digits ++ [']']), by simp, by simp⟩
  · cases read

end Takes

theorem Reader.Takes.many_flatMap {α β : Type} {reader : Reader α} (takes : reader.Takes)
    (print : β → List Char) (value : β → α) (Follows : List Char → Prop)
    (reads : ∀ b rest, Follows rest → reader (print b ++ rest) = some (value b, rest))
    (follows : ∀ b rest, Follows (print b ++ rest)) (last : Follows [])
    (stops : reader [] = none) (bs : List β) :
    Reader.many reader (bs.flatMap print) = (bs.map value, []) := by
  induction bs with
  | nil => exact Reader.many_of_none stops
  | cons b rest ih =>
    have after : Follows (rest.flatMap print) := by
      cases rest with
      | nil => exact last
      | cons next rest => exact follows next _
    rw [List.flatMap_cons, takes.many_of_some (reads b _ after), ih]
    rfl

section Reading
variable {rest : List Char}

def arrow (asText : Bool) : String := if asText then "->>" else "->"

theorem readArrow_append (asText : Bool) (ends : rest.head? ≠ some '>') :
    readArrow ((arrow asText).toList ++ rest) = some (asText, rest) := by
  cases asText with
  | true => rfl
  | false =>
    cases rest with
    | nil => rfl
    | cons c rest =>
      have other : c ≠ '>' := by simpa using ends
      simp [arrow, readArrow, other]

theorem readDigits_append (n : Nat) (ends : ∀ c ∈ rest.head?, c.isDigit = false) :
    readDigits (Nat.toDigits 10 n ++ rest) = some (n, rest) := by
  have run : Reader.run1 Char.isDigit (Nat.toDigits 10 n ++ rest) =
      some (Nat.toDigits 10 n, rest) :=
    Reader.run1_append Nat.toDigits_ne_nil (fun c => isDigit_of_mem_toDigits) ends
  simp [readDigits, run, Nat.ofDigitChars_ten_toDigits]

theorem isDigit_head_toDigits {n : Nat} {c : Char} (first : (Nat.toDigits 10 n ++ rest).head? = some c) :
    c.isDigit = true := by
  rw [List.head?_append_of_ne_nil _ Nat.toDigits_ne_nil] at first
  exact isDigit_of_mem_toDigits (List.mem_of_mem_head? first)

theorem readOperand_literal (key : String) (ends : rest.head? ≠ some '\x27') :
    readOperand ((quoted '\x27' '\x27' key).toList ++ rest) = some (.member key, rest) := by
  simp [quoted, readOperand, readQuoted_doubled _ ends]

theorem readOperand_digits (n : Nat) (ends : ∀ c ∈ rest.head?, c.isDigit = false) :
    readOperand (Nat.toDigits 10 n ++ rest) = some (.element n, rest) := by
  unfold readOperand
  split
  · rename_i quoted
    have first : '\x27'.isDigit = true := isDigit_head_toDigits (n := n) (by rw [quoted]; rfl)
    exact absurd first (by decide)
  · simp [readDigits_append n ends]

theorem JsonKey.isKeyCharacter (key : JsonKey) :
    key.name.toList ≠ [] ∧ (∀ c ∈ key.name.toList, isKeyCharacter c = true) ∧
      key.name.toList.head?.any Char.isDigit = false := by
  have word := (gate_of_checkName key.admitted).1
  obtain ⟨c, rest, spelled, starts, -⟩ := word_of_checkWord word
  refine ⟨by simp [spelled], fun x member => ?_, by simp [spelled, isDigit_of_start starts]⟩
  simp [TypedSql.isKeyCharacter, isWordRest_of_checkWord word x member]

theorem readLeg_pathStep (segment : PathSegment) (ends : ∀ c ∈ rest.head?, isKeyCharacter c = false) :
    readLeg ((Dialect.pathStep segment).toList ++ rest) = some (segment.step, rest) := by
  cases segment with
  | key key =>
    obtain ⟨some, each, first⟩ := key.isKeyCharacter
    have run := Reader.run1_append some each ends
    simp [Dialect.pathStep, readLeg, run, first, PathSegment.step]
  | index index =>
    have digits : readDigits (Nat.toDigits 10 index.toNat ++ ']' :: rest) =
        some (index.toNat, ']' :: rest) := readDigits_append index.toNat (by simp)
    simp [Dialect.pathStep, readLeg, digits, Reader.exactly, PathSegment.step]

def hopText (spell : Hole → String) (hop : PathHop PathSegment) : List Char :=
  ((Dialect.pathHop (arrow hop.asText) hop.step).write .postgres spell).toList

theorem readHop_hopText (spell : Hole → String) (hop : PathHop PathSegment)
    (ends : ∀ c ∈ rest.head?, c = '-') :
    readHop (hopText spell hop ++ rest) = some (⟨hop.step.step, hop.asText⟩, rest) := by
  obtain ⟨segment, asText⟩ := hop
  -- the operand begins with a quote or a digit, so the operator ends before it
  cases segment with
  | key key =>
    have unquoted : rest.head? ≠ some '\x27' := fun first => absurd (ends _ first) (by decide)
    have operator :
        readArrow ((arrow asText).toList ++ ((quoted '\x27' '\x27' key.name).toList ++ rest)) =
          some (asText, (quoted '\x27' '\x27' key.name).toList ++ rest) :=
      readArrow_append asText (by simp [quoted])
    simp [hopText, Dialect.pathHop, Piece.write, Dialect.quoteLiteral, readHop, operator,
      readOperand_literal key.name unquoted, PathSegment.step]
  | index index =>
    have stops : ∀ c ∈ rest.head?, c.isDigit = false := fun c first => ends c first ▸ by decide
    have operator : readArrow ((arrow asText).toList ++ (Nat.toDigits 10 index.toNat ++ rest)) =
        some (asText, Nat.toDigits 10 index.toNat ++ rest) :=
      readArrow_append asText fun first => absurd (isDigit_head_toDigits first) (by decide)
    simp [hopText, Dialect.pathHop, readHop, operator,
      readOperand_digits index.toNat stops, PathSegment.step]

end Reading

theorem Dialect.pathHops_eq (asText : Bool) (segments : List PathSegment) :
    pathHops asText segments =
      (hopsTo asText segments).flatMap fun hop => pathHop (arrow hop.asText) hop.step := by
  fun_induction pathHops asText segments with
  | case1 => rfl
  | case2 => simp [hopsTo, arrow]
  | case3 step rest more ih =>
    obtain ⟨next, rest, rfl⟩ := List.exists_cons_of_ne_nil more
    rw [hopsTo_cons, List.flatMap_cons, ih]
    rfl

theorem Sql.toList_write_flatMap {α : Type} (d : Dialect) (spell : Hole → String) (f : α → Sql)
    (xs : List α) :
    (Sql.write d spell (xs.flatMap f)).toList =
      xs.flatMap fun x => ((f x).write d spell).toList := by
  induction xs with
  | nil => rfl
  | cons x rest ih => rw [List.flatMap_cons, List.flatMap_cons, write_append, String.toList_append, ih]

section Decoding
variable (spell : Hole → String) (asText : Bool) (segments : List PathSegment)

theorem many_hops :
    Reader.many readHop ((Dialect.pathHops asText segments).write .postgres spell).toList =
      (hopsTo asText (segments.map PathSegment.step), []) := by
  rw [Dialect.pathHops_eq, Sql.toList_write_flatMap, ← map_step_hopsTo]
  refine readHop_takes.many_flatMap (hopText spell) (fun hop => ⟨hop.step.step, hop.asText⟩)
    (fun rest => ∀ c ∈ rest.head?, c = '-') (fun hop rest ends => readHop_hopText spell hop ends)
    (fun hop rest => ?_) (by simp) rfl (hopsTo asText segments)
  obtain ⟨segment, asText⟩ := hop
  cases segment <;> cases asText <;>
    simp [hopText, Dialect.pathHop, arrow, Piece.write]

theorem many_legs :
    Reader.many readLeg (String.join (segments.map Dialect.pathStep)).toList =
      (segments.map PathSegment.step, []) := by
  have listed : (String.join (segments.map Dialect.pathStep)).toList =
      segments.flatMap fun segment => (Dialect.pathStep segment).toList := by
    induction segments with
    | nil => rfl
    | cons segment rest ih => simp [String.join_cons, ih]
  rw [listed]
  refine readLeg_takes.many_flatMap _ PathSegment.step
    (fun rest => ∀ c ∈ rest.head?, isKeyCharacter c = false)
    (fun segment rest ends => readLeg_pathStep segment ends) (fun segment rest => ?_) (by simp) rfl
    segments
  cases segment <;> simp [Dialect.pathStep] <;> decide

theorem readPath_postgres :
    Dialect.postgres.readPath
        ((Dialect.pathHops asText segments).write .postgres spell).toList =
      some (hopsTo asText (segments.map PathSegment.step)) := by
  simp only [Dialect.readPath, many_hops, ↓reduceIte]

theorem readPath_mySql :
    Dialect.mySql.readPath (Sql.write .mySql spell [.text (arrow asText),
        .literal ("$" ++ String.join (segments.map Dialect.pathStep))]).toList =
      some (hopsTo asText (segments.map PathSegment.step)) := by
  have legs := many_legs segments
  generalize String.join (segments.map Dialect.pathStep) = steps at legs ⊢
  have text : (Sql.write .mySql spell [.text (arrow asText), .literal ("$" ++ steps)]).toList =
      (arrow asText).toList ++ '\x27' ::
        (doubled '\x27' (doubled '\x5c' ('$' :: steps.toList)) ++ ['\x27']) := by
    simp [Piece.write, Dialect.quoteLiteral, quoted]
  have operator (rest : List Char) :
      readArrow ((arrow asText).toList ++ '\x27' :: rest) = some (asText, '\x27' :: rest) :=
    readArrow_append asText (by simp)
  have content : readQuoted '\x27' (some '\x5c')
      (doubled '\x27' (doubled '\x5c' ('$' :: steps.toList)) ++ ['\x27']) =
        some ('$' :: steps.toList, []) :=
    readQuoted_escaped (by decide) _ (by simp)
  simp [text, Dialect.readPath, Dialect.escape?, operator, Reader.exactly, content, legs]

end Decoding

theorem Dialect.jsonAccess_steps {d : Dialect} (own : d = .postgres ∨ d = .mySql) (path : JsonPath)
    (spell : Hole → String) :
    ∃ steps : Sql, (∀ column, d.jsonAccess column path = .ok (column ++ steps)) ∧
      d.readPath (steps.write d spell).toList =
        some (hopsTo path.asText (path.segments.map PathSegment.step)) := by
  rcases own with rfl | rfl
  · exact ⟨pathHops path.asText path.segments, fun _ => rfl, readPath_postgres ..⟩
  · exact ⟨_, fun _ => rfl, readPath_mySql ..⟩

theorem JsonPath.eq_of_hops {path other : JsonPath} (some : path.segments ≠ [])
    (some' : other.segments ≠ [])
    (same : hopsTo path.asText (path.segments.map PathSegment.step) =
      hopsTo other.asText (other.segments.map PathSegment.step)) : path = other := by
  have segments : path.segments = other.segments := by
    have steps := congrArg (List.map (·.step)) same
    rw [steps_hopsTo, steps_hopsTo] at steps
    exact PathSegment.step_injective.list_map steps
  have asText : path.asText = other.asText := by
    have flags := congrArg (List.map (·.asText)) same
    rw [asText_hopsTo _ (by simpa using some), asText_hopsTo _ (by simpa using some')] at flags
    exact List.singleton_inj.mp (List.append_inj' flags rfl).2
  obtain ⟨_, _⟩ := path
  obtain ⟨_, _⟩ := other
  simp_all

/-- A JSON path is rendered without loss: every dialect that has JSON paths reads what follows the
    column as the same steps in the same order, of which the last one alone may yield text, and
    does so where the path does. So no other path is rendered alike. -/
theorem Dialect.jsonAccess_decodes {d : Dialect} (own : d = .postgres ∨ d = .mySql)
    {path : JsonPath} (some : path.segments ≠ []) (spell : Hole → String) :
    ∃ (steps : String) (hops : List (PathHop PathStep)),
      (∀ column : Sql, ∃ s, d.jsonAccess column path = .ok s ∧
        s.write d spell = column.write d spell ++ steps) ∧
      d.readPath steps.toList = .some hops ∧
      hops.map (·.step) = path.segments.map PathSegment.step ∧
      (∀ hop ∈ hops.dropLast, hop.asText = false) ∧
      hops.getLast?.map (·.asText) = .some path.asText ∧
      ∀ (other : JsonPath) (column s : Sql), other.segments ≠ [] →
        d.jsonAccess column other = .ok s → s.write d spell = column.write d spell ++ steps →
        other = path := by
  obtain ⟨steps, rendered, read⟩ := Dialect.jsonAccess_steps own path spell
  have stepped : path.segments.map PathSegment.step ≠ [] := by simpa using some
  have flags := asText_hopsTo path.asText stepped
  refine ⟨_, _, fun column => ⟨_, rendered column, Sql.write_append ..⟩, read, steps_hopsTo .., ?_,
    ?_, ?_⟩
  · intro hop member
    have flag := List.mem_map_of_mem (f := (·.asText)) member
    rw [List.map_dropLast, flags, List.dropLast_concat] at flag
    exact List.eq_of_mem_replicate flag
  · rw [← List.getLast?_map, flags, List.getLast?_concat]
  · intro other column s some' made same
    obtain ⟨steps', rendered', read'⟩ := Dialect.jsonAccess_steps own other spell
    rw [rendered', Except.ok.injEq] at made
    rw [← made, Sql.write_append, String.append_right_inj] at same
    rw [same, read, Option.some.injEq] at read'
    exact (JsonPath.eq_of_hops some some' read').symm

def firstTagName : JsonPath where
  segments := [.key ⟨"tags", by decide⟩, .index 0, .key ⟨"name", by decide⟩]
  asText := true

theorem firstTagName_decodes :
    (Dialect.mySql = .postgres ∨ Dialect.mySql = .mySql) ∧ firstTagName.segments ≠ [] ∧
      ∃ hops, Dialect.mySql.readPath "->>'$.tags[0].name'".toList = some hops ∧
        hops.map (·.step) = [.member "tags", .element 0, .member "name"] ∧
        hops.getLast?.map (·.asText) = some true := by
  have own : Dialect.mySql = .postgres ∨ Dialect.mySql = .mySql := .inr rfl
  have some : firstTagName.segments ≠ [] := by simp [firstTagName]
  obtain ⟨steps, hops, rendered, read, same, -, last, -⟩ :=
    Dialect.jsonAccess_decodes own some Hole.name
  obtain ⟨s, made, written⟩ := rendered []
  cases made
  have text : "->>'$.tags[0].name'" = steps := written.trans (by simp [Sql.write])
  exact ⟨own, some, hops, text ▸ read, same, last⟩

example : Dialect.postgres.readPath "->'tags'->0->>'name'".toList =
    some [⟨.member "tags", false⟩, ⟨.element 0, false⟩, ⟨.member "name", true⟩] := by
  decide

end TypedSql
