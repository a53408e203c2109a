import TypedSql.Proofs.Sql.Placeholder

namespace TypedSql

/-- A text with each marked word replaced by what is written for the word. The count is of
    characters yet to be left out. -/
def respell (mark : Char) (spelled : String → String) : Nat → List Char → List Char
  | _, [] => []
  | skipped + 1, _ :: rest => respell mark spelled skipped rest
  | 0, c :: rest =>
    if c = mark then
      let word := rest.takeWhile isWordRest
      (spelled (String.ofList word)).toList ++ respell mark spelled word.length rest
    else c :: respell mark spelled 0 rest

def Token.respell (mark : Char) (spelled : String → String) : Token → Token
  | .plain text => .plain (TypedSql.respell mark spelled 0 text)
  | token => token

def Token.write (d : Dialect) : Token → List Char
  | .plain text => text
  | .name n => (d.quoteName n).toList
  | .literal l => (d.quoteLiteral l).toList

def Dialect.textOf (d : Dialect) (tokens : List Token) : String :=
  String.ofList (tokens.flatMap (Token.write d))

section Words
variable {mark : Char} {spelled : String → String}

theorem respell_skip (word rest : List Char) :
    respell mark spelled word.length (word ++ rest) = respell mark spelled 0 rest := by
  induction word with
  | nil => rfl
  | cons c word ih => exact ih

theorem respell_append {cs : List Char} (unmarked : mark ∉ cs) (rest : List Char) :
    respell mark spelled 0 (cs ++ rest) = cs ++ respell mark spelled 0 rest := by
  induction cs with
  | nil => rfl
  | cons c cs ih =>
    simp only [List.mem_cons, not_or] at unmarked
    rw [List.cons_append, respell, if_neg (Ne.symm unmarked.1), ih unmarked.2, List.cons_append]

theorem respell_word {word rest : List Char} (whole : ∀ c ∈ word, isWordRest c = true)
    (ends : ∀ c ∈ rest.head?, isWordRest c = false) :
    respell mark spelled 0 (mark :: (word ++ rest)) =
      (spelled (String.ofList word)).toList ++ respell mark spelled 0 rest := by
  have stops : rest.takeWhile isWordRest = [] := by
    cases rest with
    | nil => rfl
    | cons c rest => simp [ends c rfl]
  have read : (word ++ rest).takeWhile isWordRest = word := by
    rw [List.takeWhile_append_of_pos whole, stops, List.append_nil]
  rw [respell, if_pos rfl]
  simp only [read, respell_skip]

end Words

section Texts
variable {d : Dialect} {mark : Char} {spelled : String → String} {tokens : List Token}

def trailing : List Token → List Token
  | .plain _ :: rest => rest
  | tokens => tokens

theorem foldr_glue_leading {cs : List Char} (full : cs ≠ []) :
    cs.foldr glue tokens = .plain (cs ++ leading tokens) :: trailing tokens := by
  induction cs with
  | nil => exact absurd rfl full
  | cons c cs ih =>
    cases cs with
    | nil =>
      cases tokens with
      | nil => rfl
      | cons token rest => cases token <;> rfl
    | cons next cs => rw [List.foldr_cons, ih (by simp)]; rfl

def respelled (d : Dialect) (mark : Char) (spelled : String → String) (tokens : List Token) :
    List Char := (tokens.map (Token.respell mark spelled)).flatMap (Token.write d)

theorem respelled_eq (tokens : List Token) : respelled d mark spelled tokens =
    respell mark spelled 0 (leading tokens) ++ respelled d mark spelled (trailing tokens) := by
  cases tokens with
  | nil => rfl
  | cons token rest => cases token <;> rfl

theorem respelled_glue {cs : List Char} (unmarked : mark ∉ cs) :
    respelled d mark spelled (cs.foldr glue tokens) = cs ++ respelled d mark spelled tokens := by
  cases cs with
  | nil => rfl
  | cons c cs =>
    rw [foldr_glue_leading (by simp), respelled_eq, leading, respell_append unmarked,
      respelled_eq tokens, List.append_assoc]
    rfl

theorem respelled_glue_word {word : List Char} (whole : ∀ c ∈ word, isWordRest c = true)
    (ends : ∀ c ∈ (leading tokens).head?, isWordRest c = false) :
    respelled d mark spelled ((mark :: word).foldr glue tokens) =
      (spelled (String.ofList word)).toList ++ respelled d mark spelled tokens := by
  rw [foldr_glue_leading (by simp), respelled_eq, leading, List.cons_append,
    respell_word whole ends, respelled_eq tokens, List.append_assoc]
  rfl

theorem write_glue (cs : List Char) :
    (cs.foldr glue tokens).flatMap (Token.write d) = cs ++ tokens.flatMap (Token.write d) := by
  refine foldr_glue_eq_append (f := List.flatMap (Token.write d)) (fun c tokens => ?_) cs tokens
  rcases tokens with _ | ⟨_ | _, rest⟩ <;> rfl

theorem textOf_tokens (s : Sql) (spell : Hole → String) :
    d.textOf (s.tokens spell) = s.write d spell := by
  rw [← String.toList_inj, Dialect.textOf, String.toList_ofList]
  induction s with
  | nil => rfl
  | cons p rest ih =>
    rw [Sql.toList_write_cons, ← ih]
    cases p with
    | text t => exact write_glue t.toList
    | hole use => exact write_glue (spell use).toList
    | name kind n => rfl
    | literal l => rfl

/-- To replace the named placeholders in the text is to write them otherwise. -/
theorem textOf_respell {s : Sql} {e : Edge} {n : Nat} {last : Edge × Nat}
    (walked : s.walk (e, n) = some last) (spelled : String → String) :
    d.textOf ((s.tokens fun use => d.namedPlaceholder use.name).map
        (Token.respell d.mark spelled)) = s.write d fun use => spelled use.name := by
  rw [← String.toList_inj, Dialect.textOf, String.toList_ofList]
  show respelled d d.mark spelled _ = _
  induction s generalizing e n with
  | nil => rfl
  | cons p rest ih =>
    obtain ⟨⟨e', m⟩, stepped, more⟩ := Option.bind_eq_some_iff.mp walked
    rw [Sql.toList_write_cons, ← ih more]
    cases p with
    | text t => exact respelled_glue (mark_not_mem_of_step (isSigil_mark d) stepped)
    | name kind n => rfl
    | literal l => rfl
    | hole use =>
      obtain ⟨_, -, same⟩ := Piece.step_hole stepped
      cases same
      rw [Sql.tokens, toList_namedPlaceholder,
        respelled_glue_word (isWordRest_name use) (leading_of_walk more), String.ofList_toList]
      rfl

end Texts

end TypedSql
