import TypedSql.Sql.Basic

namespace TypedSql

/-- What the text of a statement falls into. Names and literals stand without their quotes, as
    they were before anything in them was doubled or escaped. -/
inductive Token where
  | plain (text : List Char)
  | name (name : String)
  | literal (text : String)
  deriving DecidableEq

def keep (c : Char) (read : List Char × List Char) : List Char × List Char := (c :: read.1, read.2)

/-- Reads up to the closing character, and gives what stands before it and what is left. A
    doubled closing character is one in the text, and so is whatever follows an escape. -/
def readQuoted (closing : Char) (escape : Option Char) : List Char → Option (List Char × List Char)
  | [] => none
  | [c] => if c = closing then some ([], []) else none
  | c :: next :: rest =>
    if escape = some c then (readQuoted closing escape rest).map (keep next)
    else if c = closing then
      if next = closing then (readQuoted closing escape rest).map (keep c)
      else some ([], next :: rest)
    else (readQuoted closing escape (next :: rest)).map (keep c)

theorem readQuoted_length {closing : Char} {escape : Option Char} {cs : List Char}
    {read : List Char × List Char} (success : readQuoted closing escape cs = some read) :
    read.2.length < cs.length := by
  fun_induction readQuoted closing escape cs generalizing read with
  | case1 => cases success
  | case2 => cases success; simp
  | case3 => cases success
  | case6 => cases success; simp
  | _ =>
    rename_i ih
    obtain ⟨inner, found, rfl⟩ := Option.map_eq_some_iff.mp success
    have := ih found
    simp only [keep, List.length_cons] at this ⊢
    omega

def glue (c : Char) : List Token → List Token
  | .plain text :: rest => .plain (c :: text) :: rest
  | tokens => .plain [c] :: tokens

namespace Dialect

/-- What makes the next character of a literal stand for itself. -/
def escape? : Dialect → Option Char
  | .mySql => some '\x5c'
  | _ => none

/-- The tokens of a text, unless a quote in it is never closed. -/
def lex (d : Dialect) : List Char → Option (List Token)
  | [] => some []
  | c :: rest =>
    if c = d.delimiters.1 then
      match _found : readQuoted d.delimiters.2 none rest with
      | some read => (d.lex read.2).map (.name (String.ofList read.1) :: ·)
      | none => none
    else if c = '\x27' then
      match _found : readQuoted '\x27' d.escape? rest with
      | some read => (d.lex read.2).map (.literal (String.ofList read.1) :: ·)
      | none => none
    else (d.lex rest).map (glue c)
termination_by cs => cs.length
decreasing_by
  all_goals simp_wf
  all_goals try have := readQuoted_length _found
  all_goals omega

end Dialect

section Quoted
variable {closing : Char} {rest : List Char}

theorem readQuoted_append (cs text : List Char) :
    readQuoted closing none (doubled closing cs ++ text) =
      (readQuoted closing none text).map fun read => (cs ++ read.1, read.2) := by
  induction cs with
  | nil => simp [doubled]
  | cons c cs ih =>
    have more : (fun read : List Char × List Char => (c :: cs ++ read.1, read.2)) =
        keep c ∘ fun read => (cs ++ read.1, read.2) := rfl
    rw [more, ← Option.map_map, ← ih]
    by_cases same : c = closing
    · subst same
      simp [doubled, readQuoted]
    · simp only [doubled, List.flatMap_cons, same, ↓reduceIte, List.cons_append, List.nil_append]
      -- the reader looks one character ahead, so what comes after `c` is taken apart
      cases List.flatMap _ cs ++ text with
      | nil => simp [readQuoted, same]
      | cons next text => simp [readQuoted, same]

theorem readQuoted_closing (ends : rest.head? ≠ some closing) :
    readQuoted closing none (closing :: rest) = some ([], rest) := by
  cases rest with
  | nil => simp [readQuoted]
  | cons next rest =>
    have other : next ≠ closing := by simpa using ends
    simp [readQuoted, other]

theorem readQuoted_doubled (cs : List Char) (ends : rest.head? ≠ some closing) :
    readQuoted closing none (doubled closing cs ++ closing :: rest) = some (cs, rest) := by
  rw [readQuoted_append, readQuoted_closing ends, Option.map_some, List.append_nil]

theorem readQuoted_escaped {escape : Char} (apart : escape ≠ closing) (cs : List Char)
    (ends : rest.head? ≠ some closing) :
    readQuoted closing (some escape) (doubled closing (doubled escape cs) ++ closing :: rest) =
      some (cs, rest) := by
  induction cs with
  | nil =>
    cases rest with
    | nil => simp [doubled, readQuoted]
    | cons next rest =>
      have other : next ≠ closing := by simpa using ends
      simp [doubled, readQuoted, other, apart]
  | cons c cs ih =>
    by_cases escaped : c = escape
    · subst escaped
      simp only [doubled, List.flatMap_cons, ↓reduceIte, apart, List.cons_append,
        List.nil_append] at ih ⊢
      simp [readQuoted, ih, keep]
    · by_cases same : c = closing
      · subst same
        simp only [doubled, List.flatMap_cons, escaped, ↓reduceIte, List.cons_append,
          List.nil_append] at ih ⊢
        simp [readQuoted, ih, keep, apart]
      · simp only [doubled, List.flatMap_cons, escaped, same, ↓reduceIte, List.cons_append,
          List.nil_append] at ih ⊢
        generalize more : List.flatMap _ (List.flatMap _ cs) ++ closing :: rest = text at ih ⊢
        cases text with
        | nil => simp at more
        | cons next text => simp [readQuoted, same, ih, keep, Ne.symm escaped]

end Quoted

section Tokens
variable {d : Dialect} {rest : List Char}

theorem Dialect.lex_name (n : String) (ends : rest.head? ≠ some d.delimiters.2) :
    d.lex ((d.quoteName n).toList ++ rest) = (d.lex rest).map (.name n :: ·) := by
  simp only [quoteName, quoted, String.toList_ofList, List.cons_append, List.append_assoc,
    List.nil_append]
  rw [lex, if_pos rfl, readQuoted_doubled _ ends]
  simp only [String.ofList_toList]

theorem Dialect.lex_literal (l : String) (ends : rest.head? ≠ some '\x27') :
    d.lex ((d.quoteLiteral l).toList ++ rest) = (d.lex rest).map (.literal l :: ·) := by
  have read : (d.quoteLiteral l).toList ++ rest = '\x27' :: ((d.quoteLiteral l).toList.tail ++ rest) ∧
      readQuoted '\x27' d.escape? ((d.quoteLiteral l).toList.tail ++ rest) = some (l.toList, rest) := by
    cases d
    case mySql =>
      simp only [quoteLiteral, quoted, String.toList_ofList, List.cons_append, List.append_assoc,
        List.nil_append, List.tail_cons, true_and]
      exact readQuoted_escaped (by decide) _ ends
    all_goals
      simp only [quoteLiteral, quoted, String.toList_ofList, List.cons_append, List.append_assoc,
        List.nil_append, List.tail_cons, true_and]
      exact readQuoted_doubled _ ends
  rw [read.1, lex, if_neg (by cases d <;> decide), if_pos rfl, read.2]
  simp only [String.ofList_toList]

theorem Dialect.lex_plain (cs : List Char)
    (unquoted : ∀ c ∈ cs, c ≠ d.delimiters.1 ∧ c ≠ '\x27') :
    d.lex (cs ++ rest) = (d.lex rest).map fun tokens => cs.foldr glue tokens := by
  induction cs with
  | nil => cases h : d.lex rest <;> simp [h]
  | cons c cs ih =>
    obtain ⟨opening, quote⟩ := unquoted c List.mem_cons_self
    rw [List.cons_append, lex, if_neg opening, if_neg quote,
      ih fun c member => unquoted c (List.mem_cons_of_mem _ member), Option.map_map]
    rfl

end Tokens

def plainText : List Token → List Char
  | [] => []
  | .plain text :: rest => text ++ plainText rest
  | _ :: rest => plainText rest

theorem foldr_glue_eq_append {f : List Token → List Char}
    (each : ∀ c tokens, f (glue c tokens) = c :: f tokens) (cs : List Char) (tokens : List Token) :
    f (cs.foldr glue tokens) = cs ++ f tokens := by
  induction cs with
  | nil => rfl
  | cons c cs ih => rw [List.foldr_cons, each, ih, List.cons_append]

theorem plainText_glue (cs : List Char) (tokens : List Token) :
    plainText (cs.foldr glue tokens) = cs ++ plainText tokens := by
  refine foldr_glue_eq_append (fun c tokens => ?_) cs tokens
  rcases tokens with _ | ⟨_ | _, rest⟩ <;> rfl

def Sql.tokens (spell : Hole → String) : Sql → List Token
  | [] => []
  | .text t :: rest => t.toList.foldr glue (Sql.tokens spell rest)
  | .name _ n :: rest => .name n :: Sql.tokens spell rest
  | .literal l :: rest => .literal l :: Sql.tokens spell rest
  | .hole use :: rest => (spell use).toList.foldr glue (Sql.tokens spell rest)

@[simp] theorem Sql.toList_write_nil (d : Dialect) (spell : Hole → String) :
    (Sql.write d spell []).toList = [] := rfl

@[simp] theorem Sql.toList_write_cons (d : Dialect) (spell : Hole → String) (p : Piece) (s : Sql) :
    (Sql.write d spell (p :: s)).toList = (p.write d spell).toList ++ (s.write d spell).toList := by
  simp [Sql.write, String.join_cons]

end TypedSql
