import TypedSql.Proofs.Sql.Hole
import TypedSql.Proofs.Sql.Walk
import TypedSql.Render.Statement

namespace TypedSql

def Dialect.mark : Dialect → Char
  | .sqlServer => '@'
  | _ => ':'

theorem Dialect.sigil_eq (d : Dialect) : d.sigil.toList = [d.mark] := by cases d <;> decide

/-- The placeholders in a text: each mark with the word that it is followed by. -/
def marked (mark : Char) : List Char → List String
  | [] => []
  | c :: rest =>
    if c = mark then String.ofList (c :: rest.takeWhile isWordRest) :: marked mark rest
    else marked mark rest

/-- The named placeholders among tokens, from left to right. Names and literals hold none. -/
def placeholders (mark : Char) : List Token → List String
  | [] => []
  | .plain text :: rest => marked mark text ++ placeholders mark rest
  | _ :: rest => placeholders mark rest

def leading : List Token → List Char
  | .plain text :: _ => text
  | _ => []

section Marks
variable {mark : Char} {tokens : List Token}

theorem leading_glue (cs : List Char) : leading (cs.foldr glue tokens) = cs ++ leading tokens := by
  refine foldr_glue_eq_append (fun c tokens => ?_) cs tokens
  rcases tokens with _ | ⟨_ | _, rest⟩ <;> rfl

theorem placeholders_glue_mark :
    placeholders mark (glue mark tokens) =
      String.ofList (mark :: (leading tokens).takeWhile isWordRest) :: placeholders mark tokens := by
  cases tokens with
  | nil => simp [glue, placeholders, marked, leading]
  | cons token rest => cases token <;> simp [glue, placeholders, marked, leading]

theorem placeholders_glue {cs : List Char} (unmarked : mark ∉ cs) :
    placeholders mark (cs.foldr glue tokens) = placeholders mark tokens := by
  induction cs with
  | nil => rfl
  | cons c cs ih =>
    simp only [List.mem_cons, not_or] at unmarked
    rw [List.foldr_cons, ← ih unmarked.2]
    cases cs.foldr glue tokens with
    | nil => simp [glue, placeholders, marked, Ne.symm unmarked.1]
    | cons token rest =>
      cases token <;> simp [glue, placeholders, marked, Ne.symm unmarked.1]

theorem placeholders_glue_word {word : List Char} (unmarked : mark ∉ word)
    (whole : ∀ c ∈ word, isWordRest c = true)
    (ends : ∀ c ∈ (leading tokens).head?, isWordRest c = false) :
    placeholders mark ((mark :: word).foldr glue tokens) =
      String.ofList (mark :: word) :: placeholders mark tokens := by
  have stops : (leading tokens).takeWhile isWordRest = [] := by
    cases more : leading tokens with
    | nil => rfl
    | cons c rest =>
      have other := ends c (by rw [more]; rfl)
      simp [other]
  rw [List.foldr_cons, placeholders_glue_mark, leading_glue, List.takeWhile_append_of_pos whole,
    stops, List.append_nil, placeholders_glue unmarked]

end Marks

def MarkedBy (mark : Char) (spell : Hole → String) : Prop :=
  isSigil mark = true ∧
    ∀ use, ∃ word, (spell use).toList = mark :: word ∧ ∀ c ∈ word, isWordRest c = true

theorem isWordRest_of_isSigil {mark : Char} (sigil : isSigil mark = true) :
    isWordRest mark = false := by
  have among : mark ∈ [':', '@', '$', '?'] := by simpa [isSigil] using sigil
  have each : [':', '@', '$', '?'].all (fun c => !isWordRest c) = true := by decide
  simpa using List.all_eq_true.mp each mark among

theorem isSigil_mark (d : Dialect) : isSigil d.mark = true := by cases d <;> decide

theorem mark_not_mem_of_tidy {mark : Char} (sigil : isSigil mark = true) {cs : List Char}
    (clean : tidy cs = true) : mark ∉ cs := by
  intro member
  simp only [tidy, Bool.and_eq_true, List.all_eq_true] at clean
  have := clean.2 _ member
  simp [sigil] at this

theorem mark_not_mem_word {mark : Char} (sigil : isSigil mark = true) {word : List Char}
    (whole : ∀ c ∈ word, isWordRest c = true) : mark ∉ word := by
  intro member
  have apart := whole mark member
  rw [isWordRest_of_isSigil sigil] at apart
  cases apart

theorem toList_namedPlaceholder (d : Dialect) (use : Hole) :
    (d.namedPlaceholder use.name).toList = d.mark :: use.name.toList := by
  rw [Dialect.namedPlaceholder, String.toList_append, Dialect.sigil_eq]
  rfl

theorem markedBy_named (d : Dialect) : MarkedBy d.mark fun use => d.namedPlaceholder use.name :=
  ⟨isSigil_mark d, fun use => ⟨_, toList_namedPlaceholder d use, isWordRest_name use⟩⟩

section Walked
variable {mark : Char} {spell : Hole → String} {s : Sql} {e : Edge} {n : Nat} {last : Edge × Nat}

theorem leading_of_walk (walked : s.walk (.after, n) = some last) :
    ∀ c ∈ (leading (s.tokens spell)).head?, isWordRest c = false := by
  rcases head_of_walk spell (.inl rfl) walked with
    ⟨-, empty, -⟩ | ⟨c, _, -, admitted, -, text, tokens, made⟩
  · simp [empty, leading]
  · simp only [Edge.admits, Bool.and_eq_true] at admitted
    simpa [made, leading] using admitted.1

theorem mark_not_mem_of_step (sigil : isSigil mark = true) {t : String} {next : Edge × Nat}
    (stepped : Piece.step (e, n) (.text t) = some next) : mark ∉ t.toList := by
  rcases Piece.step_text stepped with ⟨empty, -⟩ | ⟨_, _, _, spelled, clean, -, -, -⟩
  · simp [empty]
  · rw [spelled]
    exact mark_not_mem_of_tidy sigil clean

/-- A walked statement holds its placeholders and nothing that could be taken for another. -/
theorem placeholders_of_walk (marked : MarkedBy mark spell)
    (walked : s.walk (e, n) = some last) :
    placeholders mark (s.tokens spell) = s.holes.map spell := by
  induction s generalizing e n with
  | nil => rfl
  | cons p rest ih =>
    obtain ⟨⟨e', m⟩, stepped, more⟩ := Option.bind_eq_some_iff.mp walked
    have inner := ih more
    cases p with
    | text t =>
      rw [Sql.tokens, placeholders_glue (mark_not_mem_of_step marked.1 stepped)]
      exact inner
    | name kind name => exact inner
    | literal l => exact inner
    | hole use =>
      obtain ⟨_, -, same⟩ := Piece.step_hole stepped
      cases same
      obtain ⟨word, spelled, whole⟩ := marked.2 use
      have read : String.ofList (mark :: word) = spell use := by
        rw [← spelled, String.ofList_toList]
      rw [Sql.tokens, spelled, placeholders_glue_word (mark_not_mem_word marked.1 whole) whole
        (leading_of_walk more), inner, read]
      rfl

end Walked

theorem spellHole_inert (d : Dialect) (style : PlaceholderStyle) (params : ParamSet) :
    SpelledInert (spellHole d style params) := by
  intro use c member
  cases style with
  | named =>
    rw [spellHole_named, toList_namedPlaceholder] at member
    rcases List.mem_cons.mp member with rfl | member
    · cases d <;> decide
    · simp [isInert, isWordRest_name use c member]
  | numbered =>
    simp only [spellHole_numbered, Dialect.numberedPlaceholder, String.toList_append,
      Nat.toString_eq_ofList_toDigits, String.toList_ofList, List.mem_append] at member
    rcases member with sign | digit
    · have inert : d.numberSign.toList.all isInert = true := by cases d <;> decide
      exact List.all_eq_true.mp inert c sign
    · simp [isInert, isWordRest_of_isDigit (isDigit_of_mem_toDigits digit)]

end TypedSql
