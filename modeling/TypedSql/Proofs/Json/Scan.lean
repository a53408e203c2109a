import TypedSql.Json.Printer
import TypedSql.Proofs.Json.Number

namespace TypedSql.Json

mutual

def Plain : Json → Prop
  | .nat n => n < UInt64.size
  | .number _ => False
  | .arr items => PlainItems items
  | .obj members => PlainMembers members
  | .null | .bool _ | .str _ => True
termination_by structural j => j

def PlainItems : List Json → Prop
  | [] => True
  | item :: rest => item.Plain ∧ PlainItems rest
termination_by structural items => items

def PlainMembers : List (String × Json) → Prop
  | [] => True
  | (_, value) :: rest => value.Plain ∧ PlainMembers rest
termination_by structural members => members

end

mutual

def written : Json → List Token
  | .null => [.scalar .null]
  | .bool b => [.scalar (.bool b)]
  | .nat n => [.scalar (.nat n)]
  | .number spelling => [.scalar (.number spelling)]
  | .str s => [.scalar (.text s)]
  | .arr items => .arrayOpen :: ([Token.comma].intercalate (writtenItems items) ++ [.arrayClose])
  | .obj members =>
    .objectOpen :: ([Token.comma].intercalate (writtenMembers members) ++ [.objectClose])
termination_by structural j => j

def writtenItems : List Json → List (List Token)
  | [] => []
  | item :: rest => item.written :: writtenItems rest
termination_by structural items => items

def writtenMembers : List (String × Json) → List (List Token)
  | [] => []
  | (key, value) :: rest => (.scalar (.text key) :: .colon :: value.written) :: writtenMembers rest
termination_by structural members => members

end

def Scan.settle : Scan → Scan
  | ⟨.word read, tokens⟩ => ⟨.between, Token.pushWord read.reverse tokens⟩
  | s => s

theorem Scan.step_settle (s : Scan) {c : Char} (ends : Token.endsWord c = true) :
    s.settle.step c = s.step c := by
  obtain ⟨place, tokens⟩ := s
  cases place with
  | word read => simp [settle, step, ends]
  | _ => rfl

theorem Scan.finish_settle (s : Scan) : s.settle.finish = s.finish := by
  obtain ⟨place, tokens⟩ := s
  cases place <;> rfl

def Scans (text : List Char) (tokens : List Token) : Prop :=
  ∀ before, (text.foldl Scan.step ⟨.between, before⟩).settle = ⟨.between, tokens.reverse ++ before⟩

namespace Scans
variable {text text' : List Char} {tokens tokens' : List Token}

theorem nil : Scans [] [] := fun _ => rfl

theorem append (first : Scans text tokens) (second : Scans text' tokens')
    (ends : ∀ c ∈ text'.head?, Token.endsWord c = true) :
    Scans (text ++ text') (tokens ++ tokens') := by
  intro before
  have settled : (text'.foldl Scan.step (text.foldl Scan.step ⟨.between, before⟩)).settle =
      (text'.foldl Scan.step (text.foldl Scan.step ⟨.between, before⟩).settle).settle := by
    cases text' with
    | nil =>
      generalize text.foldl Scan.step ⟨.between, before⟩ = s
      obtain ⟨place, made⟩ := s
      cases place <;> rfl
    | cons c rest => rw [List.foldl_cons, List.foldl_cons, Scan.step_settle _ (ends c rfl)]
  rw [List.foldl_append, settled, first before, second, List.reverse_append, List.append_assoc]

theorem punctuation {c : Char} {token : Token} (known : Token.ofPunctuation? c = some token)
    (rest : Scans text tokens) : Scans (c :: text) (token :: tokens) := by
  intro before
  have entered : Scan.step ⟨.between, before⟩ c = ⟨.between, token :: before⟩ := by
    have visible : Token.isSpace c = false ∧ (c == '\x22') = false := by
      unfold Token.ofPunctuation? at known
      split at known <;> first | exact ⟨rfl, rfl⟩ | cases known
    simp [Scan.step, Scan.enter, visible, known]
  rw [List.foldl_cons, entered, rest, List.reverse_cons, List.append_assoc]
  rfl

theorem spaces {blanks : List Char} (blank : ∀ c ∈ blanks, Token.isSpace c = true)
    (rest : Scans text tokens) : Scans (blanks ++ text) tokens := by
  induction blanks with
  | nil => exact rest
  | cons c blanks ih =>
    obtain ⟨first, others⟩ := List.forall_mem_cons.mp blank
    intro before
    have entered : Scan.step ⟨.between, before⟩ c = ⟨.between, before⟩ := by
      simp [Scan.step, Scan.enter, first]
    rw [List.cons_append, List.foldl_cons, entered]
    exact ih others before

theorem word {word : List Char} {value : Reading} (nonempty : word ≠ [])
    (unended : ∀ c ∈ word, Token.endsWord c = false)
    (read : Token.readWord word = some (value, [])) : Scans word [.scalar value] := by
  have run (more taken : List Char) (before : List Token)
      (unended : ∀ c ∈ more, Token.endsWord c = false) :
      more.foldl Scan.step ⟨.word taken, before⟩ = ⟨.word (more.reverse ++ taken), before⟩ := by
    induction more generalizing taken with
    | nil => rfl
    | cons c more ih =>
      obtain ⟨first, others⟩ := List.forall_mem_cons.mp unended
      simp only [List.foldl_cons, Scan.step, first, Bool.false_eq_true, ↓reduceIte]
      rw [ih _ others, List.reverse_cons, List.append_assoc, List.singleton_append]
  cases word with
  | nil => exact absurd rfl nonempty
  | cons c more =>
    obtain ⟨first, others⟩ := List.forall_mem_cons.mp unended
    intro before
    have entered : Scan.step ⟨.between, before⟩ c = ⟨.word [c], before⟩ := by
      simp only [Token.endsWord, Bool.or_eq_false_iff, Option.isSome_eq_false_iff,
        Option.isNone_iff_eq_none] at first
      simp [Scan.step, Scan.enter, first]
    rw [List.foldl_cons, entered, run more [c] before others]
    simp [Scan.settle, Token.pushWord, read]

end Scans

section Texts

theorem hexDigit?_hexDigit {d : Nat} (small : d < 16) : Token.hexDigit? (hexDigit d) = some d := by
  interval_cases d <;> decide

theorem foldl_escapeChar (c : Char) (read : List Char) (before : List Token) :
    (escapeChar c).foldl Scan.step ⟨.text ⟨read, none, true⟩, before⟩ =
      ⟨.text ⟨c :: read, none, true⟩, before⟩ := by
  unfold escapeChar
  split
  case h_8 quote backslash _ _ _ _ _ =>
    split
    · rename_i control
      have high : Token.hexDigit? (hexDigit (c.toNat / 16)) = some (c.toNat / 16) :=
        hexDigit?_hexDigit (by omega)
      have low : Token.hexDigit? (hexDigit (c.toNat % 16)) = some (c.toNat % 16) :=
        hexDigit?_hexDigit (by omega)
      have value : 16 * (c.toNat / 16) + c.toNat % 16 = c.toNat := by omega
      have pushed : PartialText.pushUnit ⟨read, none, true⟩ c.toNat = ⟨c :: read, none, true⟩ := by
        simp only [PartialText.pushUnit]
        rw [if_neg (by omega), if_neg (by omega)]
        simp [PartialText.push]
      have zero : Token.hexDigit? '0' = some 0 := by decide
      simp [Scan.step, high, low, zero, value, pushed]
    · rename_i printable
      simp only [List.foldl_cons, List.foldl_nil, Scan.step, beq_iff_eq, if_neg quote,
        if_neg backslash, if_neg printable]
      rfl
  all_goals rfl

theorem Scans.quote (s : String) : Scans (quote s).toList [.scalar (.text s)] := by
  intro before
  have run (cs read : List Char) : (cs.flatMap escapeChar).foldl Scan.step
      ⟨.text ⟨read, none, true⟩, before⟩ = ⟨.text ⟨cs.reverse ++ read, none, true⟩, before⟩ := by
    induction cs generalizing read with
    | nil => rfl
    | cons c cs ih =>
      rw [List.flatMap_cons, List.foldl_append, foldl_escapeChar, ih, List.reverse_cons,
        List.append_assoc, List.singleton_append]
  have opened : Scan.step ⟨.between, before⟩ '\x22' = ⟨.text ⟨[], none, true⟩, before⟩ := rfl
  rw [Json.quote, String.toList_ofList, List.cons_append, List.foldl_cons, opened,
    List.foldl_append, run]
  simp [Scan.step, Scan.settle, PartialText.finish]

end Texts

section Words

theorem endsWord_of_isDigit {c : Char} (digit : c.isDigit = true) : Token.endsWord c = false := by
  by_contra ends
  simp only [Token.endsWord, Token.isSpace, Bool.not_eq_false, Bool.or_eq_true, beq_iff_eq] at ends
  rcases ends with ((((rfl | rfl) | rfl) | rfl) | rfl) | punctuation
  all_goals try exact absurd digit (by decide)
  unfold Token.ofPunctuation? at punctuation
  split at punctuation
  all_goals first | exact absurd digit (by decide) | cases punctuation

theorem Scans.name {word : List Char} {value : Reading} (nonempty : word ≠ [])
    (unended : word.all (fun c => !Token.endsWord c) = true)
    (read : Token.readWord word = some (value, [])) : Scans word [.scalar value] :=
  .word nonempty (fun c member => by simpa using List.all_eq_true.mp unended c member) read

theorem Scans.null : Scans "null".toList [.scalar .null] :=
  .name (by decide) (by decide) rfl

theorem Scans.bool (b : Bool) : Scans (if b then "true" else "false").toList [.scalar (.bool b)] := by
  cases b
  · exact .name (by decide) (by decide) rfl
  · exact .name (by decide) (by decide) rfl

theorem Scans.nat {n : Nat} (fits : n < UInt64.size) :
    Scans (toString n).toList [.scalar (.nat n)] := by
  rw [Nat.toString_eq_ofList_toDigits, String.toList_ofList]
  exact .word Nat.toDigits_ne_nil
    (fun c member => endsWord_of_isDigit (isDigit_of_mem_toDigits member))
    (Token.readWord_toDigits fits)

end Words

section Lists
variable {parts : List String} {made : List (List Token)} {closing : List Char}
  {closed : List Token}

theorem Scans.intercalate {blanks : List Char} (blank : ∀ c ∈ blanks, Token.isSpace c = true)
    (each : List.Forall₂ (fun part tokens => Scans part.toList tokens) parts made)
    (last : Scans closing closed) (ends : ∀ c ∈ closing.head?, Token.endsWord c = true) :
    Scans ((',' :: blanks).intercalate (parts.map String.toList) ++ closing)
      ([Token.comma].intercalate made ++ closed) := by
  induction each with
  | nil => exact last
  | @cons part tokens parts made first others ih =>
    cases others with
    | nil =>
      simp only [List.map_cons, List.map_nil, List.intercalate_singleton]
      exact first.append last ends
    | cons next others =>
      simp only [List.map_cons, List.intercalate_cons_cons, List.append_assoc, List.cons_append,
        List.nil_append] at ih ⊢
      refine first.append (.punctuation rfl (.spaces blank ih)) ?_
      intro c head
      cases Option.mem_some.mp head
      rfl

variable {opening closing : String} {first last : Char} {opens closes : Token}

theorem Scans.bracketed (opened : opening.toList = [first]) (ended : closing.toList = [last])
    (begins : Token.ofPunctuation? first = some opens)
    (ends : Token.ofPunctuation? last = some closes)
    (each : List.Forall₂ (fun part tokens => Scans part.toList tokens) parts made) :
    Scans (bracketed opening closing parts).toList
      (opens :: ([Token.comma].intercalate made ++ [closes])) := by
  have stops : ∀ c ∈ [last].head?, Token.endsWord c = true := by
    intro c head
    cases Option.mem_some.mp head
    simp [Token.endsWord, ends]
  have blank : ∀ c ∈ ([] : List Char), Token.isSpace c = true := nofun
  have listed := Scans.intercalate blank each (.punctuation ends .nil) stops
  have whole := Scans.punctuation begins listed
  rw [Json.bracketed, String.toList_append, String.toList_append, String.toList_intercalate, opened,
    ended]
  simpa using whole

theorem toList_brackets : "[".toList = ['['] ∧ "]".toList = [']'] := by decide

theorem toList_braces : "\x7b".toList = ['\x7b'] ∧ "\x7d".toList = ['\x7d'] := by decide

theorem isSpace_of_newLine (level : Nat) : ∀ c ∈ (newLine level).toList, Token.isSpace c = true := by
  intro c member
  simp only [newLine, String.toList_append, String.toList_ofList, List.mem_append] at member
  rcases member with line | indent
  · obtain rfl : c = '\n' := by simpa using line
    rfl
  · obtain rfl := List.eq_of_mem_replicate indent
    rfl

theorem Scans.indented (level : Nat) (opened : opening.toList = [first])
    (ended : closing.toList = [last]) (begins : Token.ofPunctuation? first = some opens)
    (ends : Token.ofPunctuation? last = some closes)
    (each : List.Forall₂ (fun part tokens => Scans part.toList tokens) parts made) :
    Scans (indented level opening closing parts).toList
      (opens :: ([Token.comma].intercalate made ++ [closes])) := by
  cases each with
  | nil =>
    rw [Json.indented, String.toList_append, opened, ended]
    exact .punctuation begins (.punctuation ends .nil)
  | cons head rest =>
    have closed : Scans ((newLine level).toList ++ [last]) [closes] :=
      .spaces (isSpace_of_newLine level) (.punctuation ends .nil)
    have stops : ∀ c ∈ ((newLine level).toList ++ [last]).head?, Token.endsWord c = true := by
      intro c head
      simp only [newLine, String.toList_append] at head
      cases Option.mem_some.mp head
      rfl
    have listed := Scans.intercalate (isSpace_of_newLine (level + 1)) (.cons head rest) closed stops
    have whole := Scans.punctuation begins (.spaces (isSpace_of_newLine (level + 1)) listed)
    simpa [Json.indented, opened, ended] using whole

end Lists

theorem Scans.member {text blanks : List Char} {tokens : List Token}
    (blank : ∀ c ∈ blanks, Token.isSpace c = true) (key : String) (value : Scans text tokens) :
    Scans ((Json.quote key).toList ++ (':' :: blanks ++ text))
      (.scalar (.text key) :: .colon :: tokens) := by
  refine (Scans.quote key).append (.punctuation rfl (.spaces blank value)) ?_
  intro c head
  cases Option.mem_some.mp head
  rfl

mutual

theorem scans_compact (j : Json) (plain : j.Plain) : Scans j.compact.toList j.written := by
  cases j with
  | null => exact .null
  | bool b => exact .bool b
  | nat n => exact .nat (by simpa [Plain] using plain)
  | number spelling => simp [Plain] at plain
  | str s => exact .quote s
  | arr items =>
    have each := scans_compactItems items (by simpa [Plain] using plain)
    rw [compact, written]
    exact .bracketed toList_brackets.1 toList_brackets.2 rfl rfl each
  | obj members =>
    have each := scans_compactMembers members (by simpa [Plain] using plain)
    rw [compact, written]
    exact .bracketed toList_braces.1 toList_braces.2 rfl rfl each
termination_by structural j

theorem scans_compactItems (items : List Json) (plain : PlainItems items) :
    List.Forall₂ (fun part tokens => Scans part.toList tokens) (compactItems items)
      (writtenItems items) := by
  cases items with
  | nil => exact .nil
  | cons item rest =>
    have plain : item.Plain ∧ PlainItems rest := by simpa [PlainItems] using plain
    exact .cons (scans_compact item plain.1) (scans_compactItems rest plain.2)
termination_by structural items

theorem scans_compactMembers (members : List (String × Json)) (plain : PlainMembers members) :
    List.Forall₂ (fun part tokens => Scans part.toList tokens) (compactMembers members)
      (writtenMembers members) := by
  cases members with
  | nil => exact .nil
  | cons member rest =>
    obtain ⟨key, value⟩ := member
    have plain : value.Plain ∧ PlainMembers rest := by simpa [PlainMembers] using plain
    have read := scans_compact value plain.1
    have separated : ":".toList = [':'] := by decide
    have blank : ∀ c ∈ ([] : List Char), Token.isSpace c = true := nofun
    refine .cons ?_ (scans_compactMembers rest plain.2)
    rw [String.toList_append, String.toList_append, separated, List.append_assoc]
    exact .member blank key read
termination_by structural members

end

mutual

theorem scans_prettyAt (level : Nat) (j : Json) (plain : j.Plain) :
    Scans (j.prettyAt level).toList j.written := by
  cases j with
  | null => exact .null
  | bool b => exact .bool b
  | nat n => exact .nat (by simpa [Plain] using plain)
  | number spelling => simp [Plain] at plain
  | str s => exact .quote s
  | arr items =>
    have each := scans_prettyItems (level + 1) items (by simpa [Plain] using plain)
    rw [prettyAt, written]
    exact .indented level toList_brackets.1 toList_brackets.2 rfl rfl each
  | obj members =>
    have each := scans_prettyMembers (level + 1) members (by simpa [Plain] using plain)
    rw [prettyAt, written]
    exact .indented level toList_braces.1 toList_braces.2 rfl rfl each
termination_by structural j

theorem scans_prettyItems (level : Nat) (items : List Json) (plain : PlainItems items) :
    List.Forall₂ (fun part tokens => Scans part.toList tokens) (prettyItems level items)
      (writtenItems items) := by
  cases items with
  | nil => exact .nil
  | cons item rest =>
    have plain : item.Plain ∧ PlainItems rest := by simpa [PlainItems] using plain
    exact .cons (scans_prettyAt level item plain.1) (scans_prettyItems level rest plain.2)
termination_by structural items

theorem scans_prettyMembers (level : Nat) (members : List (String × Json))
    (plain : PlainMembers members) :
    List.Forall₂ (fun part tokens => Scans part.toList tokens) (prettyMembers level members)
      (writtenMembers members) := by
  cases members with
  | nil => exact .nil
  | cons member rest =>
    obtain ⟨key, value⟩ := member
    have plain : value.Plain ∧ PlainMembers rest := by simpa [PlainMembers] using plain
    have read := scans_prettyAt level value plain.1
    have separated : ": ".toList = [':', ' '] := by decide
    have blank : ∀ c ∈ [' '], Token.isSpace c = true := fun c member =>
      List.mem_singleton.mp member ▸ rfl
    refine .cons ?_ (scans_prettyMembers level rest plain.2)
    rw [String.toList_append, String.toList_append, separated, List.append_assoc]
    exact .member blank key read
termination_by structural members

end

end TypedSql.Json
