import TypedSql.Proofs.Render.Laid
import TypedSql.Proofs.Sql.Passage
import TypedSql.Proofs.Sql.Placeholder

namespace TypedSql

/-- Where every placeholder starts with a sigil and has no special characters. -/
def SpelledMarked (spell : Hole → String) : Prop :=
  SpelledInert spell ∧ ∀ use, ∃ mark word, (spell use).toList = mark :: word ∧ isSigil mark = true

theorem spellHole_marked (d : Dialect) (style : PlaceholderStyle) (params : ParamSet) :
    SpelledMarked (spellHole d style params) := by
  refine ⟨spellHole_inert d style params, fun use => ?_⟩
  cases style with
  | named =>
    refine ⟨d.mark, use.name.toList, toList_namedPlaceholder d use, ?_⟩
    cases d <;> decide
  | numbered =>
    have sign : ∃ mark word, d.numberSign.toList = mark :: word ∧ isSigil mark = true := by
      cases d
      · exact ⟨'$', [], by decide, by decide⟩
      · exact ⟨'?', [], by decide, by decide⟩
      · exact ⟨'?', [], by decide, by decide⟩
      · exact ⟨'@', ['p'], by decide, by decide⟩
    obtain ⟨mark, word, spelled, sigil⟩ := sign
    refine ⟨mark, word ++ (toString (params.position use.name)).toList, ?_, sigil⟩
    rw [spellHole_numbered, Dialect.numberedPlaceholder, String.toList_append, spelled, List.cons_append]

theorem isAlpha_toUpper_of_sigil {mark : Char} (sigil : isSigil mark = true) :
    mark.toUpper.isAlpha = false := by
  simp only [isSigil, List.contains_eq_mem, decide_eq_true_eq, List.mem_cons, List.not_mem_nil,
    or_false] at sigil
  rcases sigil with rfl | rfl | rfl | rfl <;> decide

theorem isBare_of_sigil {mark : Char} (sigil : isSigil mark = true) (word : List Char) :
    (Lexeme.word (mark :: word)).isBare = true :=
  Lexeme.isBare_of_head (isAlpha_toUpper_of_sigil sigil) word

theorem digit_all (check : Char → Bool) (each : "0123456789".toList.all check = true) {c : Char}
    (digit : c.isDigit = true) : check c = true := by
  have range : 48 ≤ c.toNat ∧ c.toNat ≤ 57 := by simpa [Char.isDigit, UInt32.le_iff_toNat_le] using digit
  have listed : ∀ n ≤ 57, 48 ≤ n → Char.ofNat n ∈ "0123456789".toList := by decide
  have among := listed c.toNat range.2 range.1
  rw [Char.ofNat_toNat] at among
  exact List.all_eq_true.mp each c among

theorem isBare_of_digits {cs : List Char} (digits : ∀ c ∈ cs, c.isDigit = true) :
    (Lexeme.word cs).isBare = true := by
  cases cs with
  | nil => rfl
  | cons c cs =>
    have other := digit_all (fun c => !c.toUpper.isAlpha) (by decide) (digits c List.mem_cons_self)
    exact Lexeme.isBare_of_head (by simpa using other) cs

theorem isWhitespace_of_inert {c : Char} (inert : isInert c = true) : c.isWhitespace = false := by
  by_contra blank
  simp only [Char.isWhitespace, Bool.not_eq_false, Bool.or_eq_true, decide_eq_true_eq] at blank
  rcases blank with ((rfl | rfl) | rfl) | rfl <;> revert inert <;> decide

section Leaves
variable {spell : Hole → String} {p k r : Nat}

theorem Sql.lexemes_hole (marked : SpelledMarked spell) (use : Hole) :
    ∃ x, Sql.lexemes spell [.hole use] = [x] ∧ x.isBare = true := by
  obtain ⟨mark, word, spelled, sigil⟩ := marked.2 use
  refine ⟨.word (mark :: word), ?_, isBare_of_sigil sigil word⟩
  rw [lexemes_hole_cons, lexemes_nil, foldr_gather_word (marked.1 use) (by simp [spelled]), spelled]

theorem Sql.Passes.hole (marked : SpelledMarked spell) (use : Hole) :
    Sql.Passes spell ⟨p, k, r⟩ [.hole use] ⟨p, k, r⟩ := by
  obtain ⟨x, lexed, bare⟩ := Sql.lexemes_hole marked use
  refine .of_idle fun y member => ?_
  rw [lexed, List.mem_singleton] at member
  rw [member]
  exact Lexeme.idle_of_bare bare

theorem getLast_of_inert {cs : List Char} (inert : ∀ c ∈ cs, isInert c = true) (full : cs ≠ [])
    (front : List Char) : ∃ c, (front ++ cs).getLast? = some c ∧ c.isWhitespace = false := by
  obtain ⟨c, last⟩ : ∃ c, cs.getLast? = some c := ⟨_, List.getLast?_eq_some_getLast full⟩
  refine ⟨c, ?_, isWhitespace_of_inert (inert c (List.mem_of_getLast? last))⟩
  rw [List.getLast?_append, last, Option.some_or]

theorem Sql.Ends.hole {d : Dialect} (marked : SpelledMarked spell) (use : Hole) :
    Sql.Ends d spell [.hole use] := by
  obtain ⟨mark, word, spelled, -⟩ := marked.2 use
  have full : (spell use).toList ≠ [] := by simp [spelled]
  rw [Sql.Ends, Sql.toList_write_cons, Sql.toList_write_nil, List.append_nil]
  exact getLast_of_inert (marked.1 use) full []

end Leaves

section Numbers
variable (n : Nat)

theorem isDigit_toString : ∀ c ∈ (toString n).toList, c.isDigit = true := by
  intro c member
  rw [Nat.toString_eq_ofList_toDigits, String.toList_ofList] at member
  exact isDigit_of_mem_toDigits member

theorem isInert_toString : ∀ c ∈ (toString n).toList, isInert c = true := fun c member => by
  simp [isInert, isWordRest_of_isDigit (isDigit_toString n c member)]

theorem toList_toString_ne_nil : (toString n).toList ≠ [] := by
  rw [Nat.toString_eq_ofList_toDigits, String.toList_ofList]
  exact Nat.toDigits_ne_nil

end Numbers

def Bare (ls : List Lexeme) : Prop := ∀ x ∈ ls, x.isBare = true

section Fields
variable {d : Dialect} {spell : Hole → String} {s t : Sql} {ls : List Lexeme}

theorem Bare.signs {cs : List Char}
    (signs : cs.all (fun c => !isInert c && (Lexeme.sign c).isBare) = true) (bare : Bare ls) :
    Bare (cs.foldr gather ls) := by
  induction cs with
  | nil => exact bare
  | cons c cs ih =>
    simp only [List.all_cons, Bool.and_eq_true, Bool.not_eq_true'] at signs
    obtain ⟨⟨sign, plain⟩, more⟩ := signs
    rw [List.foldr_cons, gather_sign sign]
    exact List.forall_mem_cons.mpr ⟨plain, ih more⟩

theorem Bare.append {rest : List Lexeme} (first : Bare ls) (second : Bare rest) :
    Bare (ls ++ rest) := List.forall_mem_append.mpr ⟨first, second⟩

theorem Bare.single {x : Lexeme} (bare : x.isBare = true) : Bare [x] :=
  List.forall_mem_singleton.mpr bare

theorem Bare.digits (n : Nat) : Bare ((toString n).toList.foldr gather []) := by
  rw [foldr_gather_word (isInert_toString n) (toList_toString_ne_nil n)]
  exact .single (isBare_of_digits (isDigit_toString n))

theorem Bare.passes {p k r : Nat} (bare : Bare (s.lexemes spell)) :
    s.Passes spell ⟨p, k, r⟩ ⟨p, k, r⟩ :=
  .of_idle fun x member => Lexeme.idle_of_bare (bare x member)

def Field.columnLexemes (f : Field) : List Lexeme :=
  match f.qualifier with
  | none => [.name f.name]
  | some (.table table) => [.name table, .sign '.', .name f.name]
  | some (.letter letter) => [.word [letter.letter], .sign '.', .name f.name]

theorem Field.lexemes_column (f : Field) : f.column.lexemes spell = f.columnLexemes := by
  have dot (ls : List Lexeme) : gather '.' ls = .sign '.' :: ls := gather_sign (by decide) ls
  obtain ⟨n, qualifier, path⟩ := f
  rcases qualifier with _ | table | letter
  · rfl
  · rw [Field.column, Sql.lexemes_name_cons, Sql.lexemes_text_cons, Sql.lexemes_name_cons]
    exact congrArg (.name table :: ·) (dot [.name n])
  · have inert : isInert letter.letter = true := by simp [isInert, letter.isWordRest_letter]
    have lexed : (letter.display ++ ".").toList.foldr gather [.name n] =
        gather letter.letter [.sign '.', .name n] := by
      rw [String.toList_append, letter.toList_display]
      exact congrArg (gather letter.letter) (dot [.name n])
    have alone : gather letter.letter [.sign '.', .name n] =
        [.word [letter.letter], .sign '.', .name n] := by
      unfold gather
      rw [if_pos inert]
    rw [Field.column, Sql.lexemes_text_cons, Sql.lexemes_name_cons, Sql.lexemes_nil, lexed, alone]
    rfl

theorem Field.bare_column (f : Field) : Bare (f.column.lexemes spell) := by
  rw [Field.lexemes_column]
  obtain ⟨n, qualifier, path⟩ := f
  rcases qualifier with _ | table | letter <;>
    simp [Bare, Field.columnLexemes, Lexeme.isBare]

def Steps (spell : Hole → String) (s : Sql) : Prop :=
  Bare (s.lexemes spell) ∧ Apart (s.lexemes spell)

theorem Steps.nil : Steps spell [] := ⟨by simp [Bare], trivial⟩

theorem Steps.append (first : Steps spell s) (second : Steps spell t) : Steps spell (s ++ t) := by
  obtain ⟨bare, apart⟩ := first
  rw [Steps, Sql.lexemes_append second.2]
  exact ⟨bare.append second.1, apart.append second.2⟩

theorem Steps.signs {operator : String} (hops : operator = "->" ∨ operator = "->>")
    (bare : Bare ls) :
    Bare (operator.toList.foldr gather ls) ∧ Apart (operator.toList.foldr gather ls) := by
  rcases hops with rfl | rfl
  · exact ⟨bare.signs (by decide), apart_gather (by decide) _⟩
  · exact ⟨bare.signs (by decide), apart_gather (by decide) _⟩

theorem Steps.literal {operator : String} (hops : operator = "->" ∨ operator = "->>") (l : String) :
    Steps spell [.text operator, .literal l] := by
  rw [Steps, Sql.lexemes_text_cons]
  exact Steps.signs hops (.single rfl)

theorem Steps.index {operator : String} (hops : operator = "->" ∨ operator = "->>") (n : Nat) :
    Steps spell (sql (operator ++ toString n)) := by
  rw [Steps, Sql.lexemes_sql, String.toList_append, List.foldr_append]
  exact Steps.signs hops (.digits n)

theorem Steps.pathHop {operator : String} (hops : operator = "->" ∨ operator = "->>")
    (segment : PathSegment) : Steps spell (Dialect.pathHop operator segment) := by
  cases segment with
  | key key => exact .literal hops key.name
  | index index => exact .index hops index.toNat

theorem Steps.pathSteps {path : Option JsonPath} {steps : Sql}
    (made : d.pathSteps path = .ok steps) : Steps spell steps :=
  Dialect.pathSteps_all .nil (fun _ => .literal) (fun _ => .index)
    (fun _ _ first rest => first.append rest) made

def Still (spell : Hole → String) (s : Sql) : Prop :=
  ∀ p k r, s.Passes spell ⟨p, k, r⟩ ⟨p, k, r⟩

theorem Field.still {f : Field} (made : f.render d = .ok s) : Still spell s := by
  intro p k r
  obtain ⟨steps, walked, rfl⟩ := Field.render_ok_iff.mp made
  have stepped : Steps spell steps := Steps.pathSteps walked
  exact Sql.Passes.append stepped.2 f.bare_column.passes stepped.1.passes

theorem Sql.Begins.name (kind : NameKind) (n : String) : Sql.Begins d spell [.name kind n] := by
  rw [Sql.Begins, Sql.toList_write_cons, Piece.write, Dialect.quoteName, quoted,
    String.toList_ofList]
  refine ⟨d.delimiters.1, rfl, ?_⟩
  cases d <;> decide

theorem Sql.Ends.quoted (closing : Char) (solid : closing.isWhitespace = false) (opening : Char)
    (text : String) :
    ∃ c, (TypedSql.quoted opening closing text).toList.getLast? = some c ∧
      c.isWhitespace = false := by
  rw [TypedSql.quoted, String.toList_ofList, List.getLast?_append]
  exact ⟨closing, rfl, solid⟩

theorem Sql.Ends.name (kind : NameKind) (n : String) : Sql.Ends d spell [.name kind n] := by
  rw [Sql.Ends, Sql.toList_write_cons, Sql.toList_write_nil, List.append_nil]
  exact Sql.Ends.quoted _ (by cases d <;> decide) _ _

theorem Sql.Ends.literal (l : String) : Sql.Ends d spell [.literal l] := by
  rw [Sql.Ends, Sql.toList_write_cons, Sql.toList_write_nil, List.append_nil]
  cases d <;> exact Sql.Ends.quoted _ (by decide) _ _

theorem Sql.Ends.pathHop (operator : String) (segment : PathSegment) :
    (Dialect.pathHop operator segment).Ends d spell := by
  cases segment with
  | key key => exact Sql.Ends.append (s := [.text operator]) (.literal key.name)
  | index index =>
    rw [Dialect.pathHop, Sql.Ends, Sql.toList_write_sql, String.toList_append]
    exact getLast_of_inert (isInert_toString _) (toList_toString_ne_nil _) _

theorem Sql.Ends.pathHops (asText : Bool) {segments : List PathSegment} (some : segments ≠ []) :
    (Dialect.pathHops asText segments).Ends d spell := by
  induction segments with
  | nil => exact absurd rfl some
  | cons hop rest ih =>
    cases rest with
    | nil => exact .pathHop _ hop
    | cons next rest =>
      rw [Dialect.pathHops]
      · exact .append (ih (by simp))
      · simp

theorem Sql.Ends.pathSteps {path : JsonPath} {steps : Sql}
    (made : d.pathSteps (some path) = .ok steps) : steps.Ends d spell := by
  simp only [Dialect.pathSteps, Dialect.jsonAccess] at made
  split at made
  · cases made
  · rename_i some
    simp only [Except.bind_eq_ok, pure, Except.pure, Except.ok.injEq, List.nil_append] at made
    obtain ⟨_, _, rfl⟩ := made
    cases d
    case mySql => exact Sql.Ends.append (s := [.text _]) (.literal _)
    all_goals exact .pathHops path.asText (by simpa using some)

theorem Field.begins {f : Field} (made : f.render d = .ok s) : s.Begins d spell := by
  obtain ⟨steps, -, rfl⟩ := Field.render_ok_iff.mp made
  refine .append ?_
  obtain ⟨n, qualifier, path⟩ := f
  rcases qualifier with _ | table | letter
  · exact .name .field n
  · exact Sql.Begins.append (s := [.name .table table]) (.name .table table)
  · have inert : isInert letter.letter = true := by simp [isInert, letter.isWordRest_letter]
    have first : (letter.display ++ ".").toList = [letter.letter, '.'] := by
      simp [letter.toList_display]
    refine Sql.Begins.append (s := sql (letter.display ++ ".")) ⟨letter.letter, ?_, ?_, ?_⟩
    · rw [Sql.toList_write_sql, first]
      rfl
    · exact isWhitespace_of_inert inert
    · exact ne_of_isInert inert (by decide)

theorem Field.ends {f : Field} (made : f.render d = .ok s) : s.Ends d spell := by
  obtain ⟨steps, walked, rfl⟩ := Field.render_ok_iff.mp made
  cases path : f.path with
  | some path => exact .append (.pathSteps (path ▸ walked))
  | none =>
    obtain rfl : steps = [] := by simpa [path, Dialect.pathSteps, eq_comm] using walked
    rw [List.append_nil]
    obtain ⟨n, qualifier, -⟩ := f
    rcases qualifier with _ | table | letter
    · exact .name .field n
    · exact Sql.Ends.append (s := [.name .table table, .text "."]) (.name .field n)
    · exact Sql.Ends.append (s := sql (letter.display ++ ".")) (.name .field n)

end Fields
end TypedSql
