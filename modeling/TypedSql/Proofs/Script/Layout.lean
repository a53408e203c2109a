import TypedSql.Proofs.Script.Reading

namespace TypedSql.Script

section Steps
variable {rest text start : List Char} {c : Char}

theorem skipFrom_none_cons :
    skipFrom none (c :: rest) =
      if isLayout c then skipFrom none rest
      else match c, rest with
        | '-', '-' :: text => skipFrom (some (c :: rest)) text
        | _, _ => c :: rest :=
  skipFrom.eq_def none (c :: rest)

theorem skipFrom_some_cons :
    skipFrom (some start) (c :: rest) =
      if c == '\n' then skipFrom none rest
      else if c == '\r' then
        match rest with
        | '\n' :: text => skipFrom none text
        | _ => start
      else skipFrom (some start) rest :=
  skipFrom.eq_def (some start) (c :: rest)

theorem skipFrom_blank (blank : isLayout c = true) :
    skipFrom none (c :: rest) = skipFrom none rest := by
  rw [skipFrom_none_cons, if_pos blank]

theorem skipFrom_comment :
    skipFrom none ('-' :: '-' :: text) = skipFrom (some ('-' :: '-' :: text)) text := by
  rw [skipFrom_none_cons]
  rfl

theorem skipFrom_solid (solid : isLayout c = false) (other : c ≠ '-') :
    skipFrom none (c :: rest) = c :: rest := by
  rw [skipFrom_none_cons]
  simp [solid, other]

theorem skipFrom_line : skipFrom (some start) ('\n' :: rest) = skipFrom none rest := by
  rw [skipFrom_some_cons]
  rfl

theorem skipFrom_lineFeed : skipFrom (some start) ('\r' :: '\n' :: rest) = skipFrom none rest := by
  rw [skipFrom_some_cons]
  rfl

theorem skipFrom_text (inside : c ≠ '\r' ∧ c ≠ '\n') :
    skipFrom (some start) (c :: rest) = skipFrom (some start) rest := by
  rw [skipFrom_some_cons]
  simp [inside]

end Steps

section Continued
variable {comment : Option (List Char)} {text rest : List Char} {c : Char}

theorem skipFrom_append (left : skipFrom comment text = c :: rest) (other : c ≠ '-')
    (begun : ∀ start ∈ comment, start.head? = some '-') (more : List Char) :
    skipFrom (comment.map (· ++ more)) (text ++ more) = c :: rest ++ more := by
  fun_induction skipFrom comment text with
  | case1 => cases left
  | case2 d text blank ih =>
    have same := ih left (by simp)
    rwa [Option.map_none, List.cons_append, skipFrom_blank blank]
  | case3 text solid ih =>
    have same := ih left (by simp)
    rwa [Option.map_none, List.cons_append, List.cons_append, skipFrom_comment]
  | case4 d text solid apart =>
    cases left
    rw [Option.map_none, List.cons_append, skipFrom_solid (by simpa using solid) other]
  | case5 d text start line ih =>
    obtain rfl : d = '\n' := by simpa using line
    have same := ih left (by simp)
    rwa [Option.map_some, List.cons_append, skipFrom_line]
  | case6 d start unlike cut text ih =>
    obtain rfl : d = '\r' := by simpa using cut
    have same := ih left (by simp)
    rwa [Option.map_some, List.cons_append, List.cons_append, skipFrom_lineFeed]
  | case7 d text start =>
    have first := begun start rfl
    rw [left, List.head?_cons, Option.some.injEq] at first
    exact absurd first other
  | case8 d text start unlike uncut ih =>
    have inside : d ≠ '\r' ∧ d ≠ '\n' := ⟨by simpa using uncut, by simpa using unlike⟩
    have same := ih left begun
    rwa [Option.map_some, List.cons_append, skipFrom_text inside]

theorem skipLayout_append (left : skipLayout text = c :: rest) (other : c ≠ '-')
    (more : List Char) : skipLayout (text ++ more) = c :: rest ++ more :=
  skipFrom_append left other (by simp) more

theorem skipFrom_append_line (left : skipFrom comment text = [])
    (begun : ∀ start ∈ comment, start ≠ []) (more : List Char) :
    skipFrom (comment.map (· ++ '\n' :: more)) (text ++ '\n' :: more) = skipFrom none more := by
  fun_induction skipFrom comment text with
  | case1 comment =>
    cases comment with
    | none => exact skipFrom_blank (by decide)
    | some start => exact skipFrom_line
  | case2 d text blank ih =>
    have same := ih left (by simp)
    rwa [Option.map_none, List.cons_append, skipFrom_blank blank]
  | case3 text solid ih =>
    have same := ih left (by simp)
    rwa [Option.map_none, List.cons_append, List.cons_append, skipFrom_comment]
  | case4 => cases left
  | case5 d text start line ih =>
    obtain rfl : d = '\n' := by simpa using line
    have same := ih left (by simp)
    rwa [Option.map_some, List.cons_append, skipFrom_line]
  | case6 d start unlike cut text ih =>
    obtain rfl : d = '\r' := by simpa using cut
    have same := ih left (by simp)
    rwa [Option.map_some, List.cons_append, List.cons_append, skipFrom_lineFeed]
  | case7 d text start => exact absurd left (begun start rfl)
  | case8 d text start unlike uncut ih =>
    have inside : d ≠ '\r' ∧ d ≠ '\n' := ⟨by simpa using uncut, by simpa using unlike⟩
    have same := ih left begun
    rwa [Option.map_some, List.cons_append, skipFrom_text inside]

theorem skipLayout_append_line (left : skipLayout text = []) (more : List Char) :
    skipLayout (text ++ '\n' :: more) = skipLayout more :=
  skipFrom_append_line left (by simp) more

theorem skipFrom_suffix {whole : List Char} (within : text <:+ whole)
    (begun : ∀ start ∈ comment, start <:+ whole) : skipFrom comment text <:+ whole := by
  fun_induction skipFrom comment text with
  | case1 => exact List.nil_suffix
  | case2 d text blank ih => exact ih ((List.suffix_cons d text).trans within) (by simp)
  | case3 text solid ih =>
    have opening : text <:+ '-' :: '-' :: text := ⟨['-', '-'], rfl⟩
    exact ih (opening.trans within) (by simpa using within)
  | case4 => exact within
  | case5 d text start line ih => exact ih ((List.suffix_cons d text).trans within) (by simp)
  | case6 d start unlike cut text ih =>
    have ending : text <:+ d :: '\n' :: text := ⟨[d, '\n'], rfl⟩
    exact ih (ending.trans within) (by simp)
  | case7 d text start => exact begun start rfl
  | case8 d text start unlike uncut ih => exact ih ((List.suffix_cons d text).trans within) begun

theorem skipLayout_suffix (text : List Char) : skipLayout text <:+ text :=
  skipFrom_suffix (List.suffix_refl text) (by simp)

end Continued
end TypedSql.Script
