import TypedSql.Proofs.Sql.Walk

namespace TypedSql

/-- What a text falls into where words count. A placeholder is a word with its sigil, so none is
    ever a keyword. -/
inductive Lexeme where
  | word (text : List Char)
  | sign (c : Char)
  | name (name : String)
  | literal (text : String)
  deriving DecidableEq

def gather (c : Char) (ls : List Lexeme) : List Lexeme :=
  if isInert c then
    match ls with
    | .word text :: rest => .word (c :: text) :: rest
    | ls => .word [c] :: ls
  else .sign c :: ls

def lexemes : List Token → List Lexeme
  | [] => []
  | .plain text :: rest => text.foldr gather (lexemes rest)
  | .name n :: rest => .name n :: lexemes rest
  | .literal l :: rest => .literal l :: lexemes rest

def Lexeme.write (d : Dialect) : Lexeme → List Char
  | .word text => text
  | .sign c => [c]
  | .name n => (d.quoteName n).toList
  | .literal l => (d.quoteLiteral l).toList

def spelled (d : Dialect) (ls : List Lexeme) : String := String.ofList (ls.flatMap (Lexeme.write d))

def Sql.lexemes (spell : Hole → String) (s : Sql) : List Lexeme :=
  TypedSql.lexemes (s.tokens spell)

/-- That no word comes first, which text in front could run into. -/
def Apart : List Lexeme → Prop
  | .word _ :: _ => False
  | _ => True

section Gathering
variable {ls after : List Lexeme}

theorem Apart.append (first : Apart ls) (second : Apart after) : Apart (ls ++ after) := by
  cases ls with
  | nil => exact second
  | cons x rest =>
    cases x with
    | word text => exact first.elim
    | _ => trivial

theorem lexemes_glue (cs : List Char) (tokens : List Token) :
    lexemes (cs.foldr glue tokens) = cs.foldr gather (lexemes tokens) := by
  induction cs with
  | nil => rfl
  | cons c cs ih =>
    rw [List.foldr_cons, List.foldr_cons, ← ih]
    cases cs.foldr glue tokens with
    | nil => rfl
    | cons token rest => cases token <;> rfl

theorem gather_sign {c : Char} (sign : isInert c = false) (ls : List Lexeme) :
    gather c ls = .sign c :: ls := by
  unfold gather
  rw [if_neg (by simp [sign])]

theorem gather_append (apart : Apart after) (c : Char) :
    gather c (ls ++ after) = gather c ls ++ after := by
  unfold gather
  split
  · rcases ls with - | ⟨x, ls⟩
    · rcases after with - | ⟨x, after⟩
      · rfl
      · cases x with
        | word => exact apart.elim
        | _ => rfl
    · cases x <;> rfl
  · rfl

theorem foldr_gather_append (apart : Apart after) (cs : List Char) :
    cs.foldr gather (ls ++ after) = cs.foldr gather ls ++ after := by
  induction cs with
  | nil => rfl
  | cons c cs ih => rw [List.foldr_cons, List.foldr_cons, ih, gather_append apart]

theorem foldr_gather (apart : Apart after) (cs : List Char) :
    cs.foldr gather after = cs.foldr gather [] ++ after := by
  have split : cs.foldr gather ([] ++ after) = cs.foldr gather [] ++ after :=
    foldr_gather_append apart cs
  rwa [List.nil_append] at split

theorem foldr_gather_closed {c : Char} (sign : isInert c = false) (cs : List Char) :
    (cs ++ [c]).foldr gather after = (cs ++ [c]).foldr gather [] ++ after := by
  have one (ls : List Lexeme) : [c].foldr gather ls = .sign c :: ls := gather_sign sign ls
  have followed : Apart (.sign c :: after) := trivial
  have alone : Apart [.sign c] := trivial
  rw [List.foldr_append, List.foldr_append, one, one, foldr_gather followed, foldr_gather alone,
    List.append_assoc]
  rfl

theorem apart_gather {c : Char} (sign : isInert c = false) (ls : List Lexeme) :
    Apart (gather c ls) := by
  rw [gather_sign sign]
  trivial

theorem foldr_gather_word {cs : List Char} (inert : ∀ c ∈ cs, isInert c = true) (full : cs ≠ []) :
    cs.foldr gather [] = [.word cs] := by
  induction cs with
  | nil => exact absurd rfl full
  | cons c cs ih =>
    have first := inert c List.mem_cons_self
    cases cs with
    | nil => simp [gather, first]
    | cons next cs =>
      rw [List.foldr_cons, ih (fun d member => inert d (List.mem_cons_of_mem _ member)) (by simp)]
      simp [gather, first]

theorem flatMap_write_gather (d : Dialect) (c : Char) :
    (gather c ls).flatMap (Lexeme.write d) = c :: ls.flatMap (Lexeme.write d) := by
  unfold gather
  split
  · rcases ls with - | ⟨x, ls⟩
    · rfl
    · cases x <;> rfl
  · rfl

theorem flatMap_write_foldr (d : Dialect) (cs : List Char) :
    (cs.foldr gather ls).flatMap (Lexeme.write d) = cs ++ ls.flatMap (Lexeme.write d) := by
  induction cs with
  | nil => rfl
  | cons c cs ih => rw [List.foldr_cons, flatMap_write_gather, ih, List.cons_append]

end Gathering

namespace Sql
variable {spell : Hole → String} {s t : Sql}

@[simp] theorem lexemes_nil : lexemes spell [] = [] := rfl

theorem lexemes_text_cons (text : String) :
    lexemes spell (.text text :: s) = text.toList.foldr gather (s.lexemes spell) :=
  lexemes_glue _ _

theorem lexemes_hole_cons (use : Hole) :
    lexemes spell (.hole use :: s) = (spell use).toList.foldr gather (s.lexemes spell) :=
  lexemes_glue _ _

@[simp] theorem lexemes_name_cons (kind : NameKind) (n : String) :
    lexemes spell (.name kind n :: s) = .name n :: s.lexemes spell := rfl

@[simp] theorem lexemes_literal_cons (l : String) :
    lexemes spell (.literal l :: s) = .literal l :: s.lexemes spell := rfl

theorem lexemes_sql (text : String) : (sql text).lexemes spell = text.toList.foldr gather [] :=
  lexemes_text_cons text

theorem lexemes_append (apart : Apart (t.lexemes spell)) :
    (s ++ t).lexemes spell = s.lexemes spell ++ t.lexemes spell := by
  induction s with
  | nil => rfl
  | cons p rest ih =>
    cases p with
    | text text =>
      rw [List.cons_append, lexemes_text_cons, lexemes_text_cons, ih, foldr_gather_append apart]
    | name kind n => simp [ih]
    | literal l => simp [ih]
    | hole use =>
      rw [List.cons_append, lexemes_hole_cons, lexemes_hole_cons, ih, foldr_gather_append apart]

theorem flatMap_write_lexemes (d : Dialect) :
    (s.lexemes spell).flatMap (Lexeme.write d) = (s.write d spell).toList := by
  induction s with
  | nil => rfl
  | cons p rest ih =>
    rw [toList_write_cons, ← ih]
    cases p with
    | text text => rw [lexemes_text_cons, flatMap_write_foldr, Piece.write]
    | name kind n => rfl
    | literal l => rfl
    | hole use => rw [lexemes_hole_cons, flatMap_write_foldr, Piece.write]

theorem spelled_lexemes (d : Dialect) : spelled d (s.lexemes spell) = s.write d spell := by
  rw [spelled, flatMap_write_lexemes, String.ofList_toList]

end Sql
end TypedSql
