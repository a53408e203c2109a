import TypedSql.Proofs.Sql.Formula
import TypedSql.Proofs.Sql.Phrase

namespace TypedSql

def quiet (p : Nat) : List Lexeme → Option Nat
  | [] => some p
  | .sign '(' :: rest => quiet (p + 1) rest
  | .sign ')' :: rest =>
    match p with
    | 0 => none
    | p + 1 => quiet p rest
  | .word w :: rest => if p = 0 ∧ keyword? w ≠ none then none else quiet p rest
  | _ :: rest => quiet p rest

def Lexeme.idle : Lexeme → Bool
  | .word w => keyword? w == none
  | .sign c => c != '(' && c != ')'
  | _ => true

theorem keyword?_of_head {c : Char} (other : c.toUpper.isAlpha = false) (cs : List Char) :
    keyword? (c :: cs) = none := by
  have apart (w : Char) (letter : w.isAlpha = true) : c.toUpper ≠ w := by
    rintro rfl
    rw [other] at letter
    cases letter
  unfold keyword?
  simp [apart 'C' (by decide), apart 'E' (by decide), apart 'B' (by decide), apart 'A' (by decide),
    apart 'O' (by decide)]

theorem keyword?_single (c : Char) : keyword? [c] = none := by
  unfold keyword?
  simp

/-- A lexeme that is no keyword of any grammar, and neither bracket nor comma. No keyword is a
    single letter. -/
def Lexeme.isBare : Lexeme → Bool
  | .word (c :: _ :: _) => !c.toUpper.isAlpha
  | .sign c => c != '(' && c != ')' && c != ','
  | _ => true

theorem Lexeme.isBare_of_head {c : Char} (other : c.toUpper.isAlpha = false) (cs : List Char) :
    (word (c :: cs)).isBare = true := by
  cases cs with
  | nil => rfl
  | cons d cs => simp [isBare, other]

theorem Lexeme.idle_of_bare {x : Lexeme} (bare : x.isBare = true) : x.idle = true := by
  cases x with
  | word w =>
    rcases w with - | ⟨c, - | ⟨d, w⟩⟩
    · decide
    · simp [idle, keyword?_single]
    · have other : c.toUpper.isAlpha = false := by simpa [isBare] using bare
      simp [idle, keyword?_of_head other]
  | sign c =>
    simp only [isBare, Bool.and_eq_true] at bare
    simp only [idle, Bool.and_eq_true]
    exact bare.1
  | _ => rfl

section Quiet
variable {p q k r : Nat} {ls rest : List Lexeme}

theorem pass_of_quiet (settles : quiet p ls = some q) (k r : Nat) :
    pass ⟨p, k, r⟩ ls = some ⟨q, k, r⟩ := by
  fun_induction quiet p ls with
  | case1 => cases settles; rfl
  | case2 p rest ih => exact ih settles
  | case3 rest => cases settles
  | case4 p rest ih => exact ih settles
  | case5 p w rest keyword => cases settles
  | case6 p w rest plain ih =>
    have turn : Level.turn ⟨p, k, r⟩ (.word w) = .on ⟨p, k, r⟩ := by
      unfold Level.turn
      by_cases outside : p = 0
      · have none : keyword? w = none := by
          by_contra keyword
          exact plain ⟨outside, keyword⟩
        simp [outside, none]
      · simp [outside]
    rw [pass, turn]
    exact ih settles
  | case7 p x rest notOpening notClosing notWord ih =>
    have turn : Level.turn ⟨p, k, r⟩ x = .on ⟨p, k, r⟩ := by
      cases x with
      | word w => exact (notWord w rfl).elim
      | sign c =>
        unfold Level.turn
        split <;> simp_all
      | name n => rfl
      | literal l => rfl
    rw [pass, turn]
    exact ih settles

theorem quiet_of_idle (idle : ∀ x ∈ ls, x.idle = true) : quiet p ls = some p := by
  fun_induction quiet p ls with
  | case1 => rfl
  | case2 p rest ih => simp [Lexeme.idle] at idle
  | case3 rest => simp [Lexeme.idle] at idle
  | case4 p rest ih => simp [Lexeme.idle] at idle
  | case5 p w rest keyword =>
    have := idle _ List.mem_cons_self
    simp [Lexeme.idle, keyword.2] at this
  | case6 p w rest plain ih => exact ih fun x member => idle x (List.mem_cons_of_mem _ member)
  | case7 p x rest _ _ _ ih => exact ih fun x member => idle x (List.mem_cons_of_mem _ member)

theorem quiet_of_nest (nested : nest (ls.filterMap Lexeme.sign?) p = some q) :
    quiet (p + 1) ls = some (q + 1) := by
  induction ls generalizing p with
  | nil =>
    cases nested
    rfl
  | cons x rest ih =>
    cases x with
    | word w =>
      rw [quiet, if_neg (by simp)]
      exact ih nested
    | name n => exact ih nested
    | literal l => exact ih nested
    | sign c =>
      have nested : nest (c :: rest.filterMap Lexeme.sign?) p = some q := nested
      by_cases opening : c = '('
      · subst opening
        exact ih nested
      · by_cases closing : c = ')'
        · subst closing
          cases p with
          | zero => cases nested
          | succ p => exact ih nested
        · rw [nest] at nested
          · rw [quiet]
            · exact ih nested
            · simpa using opening
            · simpa using closing
            · simp
          · simpa using opening
          · simpa using closing

theorem nest_sign {c : Char} (inert : isInert c = true) (cs : List Char) (n : Nat) :
    nest (c :: cs) n = nest cs n := by
  have single : nest [c] n = some n := nest_of_inert (by simpa using inert) n
  rw [← List.singleton_append, nest_append, single, Option.bind_some]

theorem nest_gather (c : Char) (ls : List Lexeme) (n : Nat) :
    nest ((gather c ls).filterMap Lexeme.sign?) n = nest (c :: ls.filterMap Lexeme.sign?) n := by
  unfold gather
  split
  · rename_i inert
    rw [nest_sign inert]
    rcases ls with - | ⟨x, ls⟩
    · rfl
    · cases x <;> rfl
  · rfl

theorem nest_lexemes (tokens : List Token) (n : Nat) :
    nest ((lexemes tokens).filterMap Lexeme.sign?) n = nest (plainText tokens) n := by
  have one (c : Char) (ls : List Lexeme) (cs : List Char)
      (same : ∀ n, nest (ls.filterMap Lexeme.sign?) n = nest cs n) (n : Nat) :
      nest ((gather c ls).filterMap Lexeme.sign?) n = nest (c :: cs) n := by
    have split (ds : List Char) : nest (c :: ds) n = (nest [c] n).bind (nest ds) :=
      nest_append [c] ds n
    rw [nest_gather, split, split (cs), funext same]
  induction tokens generalizing n with
  | nil => rfl
  | cons token rest ih =>
    cases token with
    | name name => exact ih n
    | literal l => exact ih n
    | plain text =>
      show nest ((text.foldr gather (lexemes rest)).filterMap Lexeme.sign?) n =
        nest (text ++ plainText rest) n
      induction text generalizing n with
      | nil => exact ih n
      | cons c text more => exact one c _ _ more n

end Quiet

theorem Sql.Runs.nest_lexemes {spell : Hole → String} {P Q : Stance} {s : Sql}
    (inert : SpelledInert spell) {e : Edge} (stands : P.Holds e) (runs : s.Runs P 0 Q 0) (n : Nat) :
    nest ((s.lexemes spell).filterMap Lexeme.sign?) n = some n := by
  obtain ⟨e', -, walked⟩ := runs e n stands
  rw [Sql.lexemes, TypedSql.nest_lexemes]
  exact (plainText_of_walk inert walked).2

/-- That a part is read from one level to another, with no connective that ends it. -/
def Sql.Passes (spell : Hole → String) (l : Level) (s : Sql) (m : Level) : Prop :=
  pass l (s.lexemes spell) = some m

def closed (cs : List Char) : Bool := cs.getLast?.any fun c => !isInert c

def opened (cs : List Char) : Bool := cs.head?.any fun c => !isInert c

section Texts
variable {spell : Hole → String} {s t : Sql} {text : String}

theorem Sql.lexemes_closed (ends : closed text.toList = true) :
    (sql text ++ s).lexemes spell = text.toList.foldr gather [] ++ s.lexemes spell := by
  rw [sql, List.singleton_append, lexemes_text_cons]
  cases last : text.toList.getLast? with
  | none => simp [closed, last] at ends
  | some c =>
    obtain ⟨front, spelled⟩ := List.getLast?_eq_some_iff.mp last
    have sign : isInert c = false := by simpa [closed, last] using ends
    rw [spelled, foldr_gather_closed sign]

theorem Sql.apart_of_opened (begins : opened text.toList = true) :
    Apart ((sql text ++ s).lexemes spell) := by
  rw [sql, List.singleton_append, lexemes_text_cons]
  cases spelled : text.toList with
  | nil => simp [opened, spelled] at begins
  | cons c cs => exact apart_gather (by simpa [opened, spelled] using begins) _

theorem Sql.lexemes_opened (begins : opened text.toList = true) :
    (s ++ sql text).lexemes spell = s.lexemes spell ++ text.toList.foldr gather [] := by
  have apart : Apart ((sql text ++ []).lexemes spell) := apart_of_opened begins
  rw [List.append_nil] at apart
  rw [lexemes_append apart, lexemes_sql]

theorem Sql.lexemes_linked (begins : opened text.toList = true) (ends : closed text.toList = true) :
    (s ++ sql text ++ t).lexemes spell =
      s.lexemes spell ++ (text.toList.foldr gather [] ++ t.lexemes spell) := by
  rw [List.append_assoc, lexemes_append (apart_of_opened begins), lexemes_closed ends]

end Texts

def leads (cs : List Char) (p q : Nat) : Bool :=
  closed cs && quiet p (cs.foldr gather []) == some q

def closes (cs : List Char) (p q : Nat) : Bool :=
  opened cs && quiet p (cs.foldr gather []) == some q

namespace Sql.Passes
variable {spell : Hole → String} {l m n o : Level} {p q k r : Nat} {s t : Sql} {text : String}

theorem append (apart : Apart (t.lexemes spell)) (first : s.Passes spell l m)
    (second : t.Passes spell m n) : (s ++ t).Passes spell l n := by
  unfold Passes at *
  rw [lexemes_append apart, pass_append, first]
  exact second

theorem nil : Passes spell l [] l := rfl

theorem led (leading : leads text.toList p q = true) (inner : s.Passes spell ⟨q, k, r⟩ m) :
    (sql text ++ s).Passes spell ⟨p, k, r⟩ m := by
  simp only [leads, Bool.and_eq_true, beq_iff_eq] at leading
  unfold Passes at *
  rw [lexemes_closed leading.1, pass_append, pass_of_quiet leading.2, Option.bind_some]
  exact inner

theorem suffixed (inner : s.Passes spell l m) (begins : opened text.toList = true)
    (after : pass m (text.toList.foldr gather []) = some n) :
    (s ++ sql text).Passes spell l n := by
  unfold Passes at *
  rw [lexemes_opened begins, pass_append, inner]
  exact after

theorem closed (inner : s.Passes spell l ⟨p, k, r⟩) (closing : closes text.toList p q = true) :
    (s ++ sql text).Passes spell l ⟨q, k, r⟩ := by
  simp only [closes, Bool.and_eq_true, beq_iff_eq] at closing
  exact inner.suffixed closing.1 (pass_of_quiet closing.2 k r)

theorem bridged (first : s.Passes spell l m) (begins : opened text.toList = true)
    (ends : TypedSql.closed text.toList = true)
    (between : pass m (text.toList.foldr gather []) = some n) (second : t.Passes spell n o) :
    (s ++ sql text ++ t).Passes spell l o := by
  unfold Passes at *
  rw [lexemes_linked begins ends, pass_append, first, Option.bind_some, pass_append, between,
    Option.bind_some]
  exact second

theorem linked (first : s.Passes spell l ⟨p, k, r⟩) (closing : closes text.toList p q = true)
    (ends : TypedSql.closed text.toList = true) (second : t.Passes spell ⟨q, k, r⟩ m) :
    (s ++ sql text ++ t).Passes spell l m := by
  simp only [closes, Bool.and_eq_true, beq_iff_eq] at closing
  exact first.bridged closing.1 ends (pass_of_quiet closing.2 k r) second

theorem of_idle (idle : ∀ x ∈ s.lexemes spell, x.idle = true) :
    s.Passes spell ⟨p, k, r⟩ ⟨p, k, r⟩ := pass_of_quiet (quiet_of_idle idle) k r

theorem of_runs {P Q : Stance} (inert : SpelledInert spell) {e : Edge} (stands : P.Holds e)
    (runs : s.Runs P 0 Q 0) : s.Passes spell ⟨p + 1, k, r⟩ ⟨p + 1, k, r⟩ :=
  pass_of_quiet (quiet_of_nest (runs.nest_lexemes inert stands p)) k r

theorem of_phrase (inert : SpelledInert spell) (phrase : Phrase s) :
    s.Passes spell ⟨p + 1, k, r⟩ ⟨p + 1, k, r⟩ := by
  have stands : Stance.Holds (.ready .field) (.before .field) := rfl
  exact of_runs inert stands phrase

theorem enclosed {pre post : String} (inert : SpelledInert spell)
    (leading : leads pre.toList 0 1 = true) (inner : Phrase s)
    (closing : closes post.toList 1 0 = true) :
    (sql pre ++ s ++ sql post).Passes spell ⟨0, k, r⟩ ⟨0, k, r⟩ :=
  (led leading (of_phrase inert inner)).closed closing

theorem paired {pre mid post : String} (inert : SpelledInert spell)
    (leading : leads pre.toList 0 1 = true) (first : Phrase s)
    (linking : closes mid.toList 1 1 = true) (ends : TypedSql.closed mid.toList = true)
    (second : Phrase t) (closing : closes post.toList 1 0 = true) :
    (sql pre ++ s ++ sql mid ++ t ++ sql post).Passes spell ⟨0, k, r⟩ ⟨0, k, r⟩ :=
  ((led leading (of_phrase inert first)).linked linking ends (of_phrase inert second)).closed
    closing

theorem join (begins : opened text.toList = true) (ends : TypedSql.closed text.toList = true)
    (between : pass l (text.toList.foldr gather []) = some l) {parts : List Sql}
    (each : ∀ part ∈ parts, part.Passes spell l l) : (Sql.join text parts).Passes spell l l := by
  induction parts with
  | nil => exact .nil
  | cons part rest ih =>
    have first := each part List.mem_cons_self
    cases rest with
    | nil => exact first
    | cons next rest =>
      exact first.bridged begins ends between
        (ih fun other member => each other (List.mem_cons_of_mem _ member))

end Sql.Passes

def Sql.Begins (d : Dialect) (spell : Hole → String) (s : Sql) : Prop :=
  ∃ c, (s.write d spell).toList.head? = some c ∧ c.isWhitespace = false ∧ c ≠ '('

def Sql.Ends (d : Dialect) (spell : Hole → String) (s : Sql) : Prop :=
  ∃ c, (s.write d spell).toList.getLast? = some c ∧ c.isWhitespace = false

section Edges
variable {d : Dialect} {spell : Hole → String} {s t : Sql}

theorem Sql.toList_write_append (d : Dialect) (spell : Hole → String) (s t : Sql) :
    (Sql.write d spell (s ++ t)).toList =
      (s.write d spell).toList ++ (t.write d spell).toList := by
  induction s with
  | nil => rfl
  | cons p rest ih =>
    rw [List.cons_append, toList_write_cons, toList_write_cons, ih, List.append_assoc]

theorem Sql.Begins.append (begins : s.Begins d spell) : (s ++ t).Begins d spell := by
  obtain ⟨c, first, solid⟩ := begins
  exact ⟨c, by rw [toList_write_append, List.head?_append, first]; rfl, solid⟩

theorem Sql.Ends.append (ends : t.Ends d spell) : (s ++ t).Ends d spell := by
  obtain ⟨c, last, solid⟩ := ends
  exact ⟨c, by rw [toList_write_append, List.getLast?_append, last]; rfl, solid⟩

theorem Sql.toList_write_sql (text : String) : ((sql text).write d spell).toList = text.toList := by
  rw [sql, toList_write_cons, toList_write_nil, List.append_nil]
  rfl

theorem Sql.Begins.text {text : String}
    (solid : text.toList.head?.any (fun c => !c.isWhitespace && c != '(') = true) :
    (sql text).Begins d spell := by
  unfold Sql.Begins
  rw [toList_write_sql]
  cases first : text.toList.head? with
  | none => simp [first] at solid
  | some c => exact ⟨c, rfl, by simpa [first] using solid⟩

theorem Sql.Ends.text {text : String}
    (solid : text.toList.getLast?.any (fun c => !c.isWhitespace) = true) :
    (sql text).Ends d spell := by
  unfold Sql.Ends
  rw [toList_write_sql]
  cases last : text.toList.getLast? with
  | none => simp [last] at solid
  | some c => exact ⟨c, rfl, by simpa [last] using solid⟩

theorem head_of_sign {c : Char} {ls : List Lexeme} (first : ls.head? = some (.sign c)) :
    (ls.flatMap (Lexeme.write d)).head? = some c := by
  obtain ⟨rest, rfl⟩ := List.head?_eq_some_iff.mp first
  rfl

theorem getLast_of_sign {c : Char} {ls : List Lexeme} (last : ls.getLast? = some (.sign c)) :
    (ls.flatMap (Lexeme.write d)).getLast? = some c := by
  obtain ⟨front, rfl⟩ := List.getLast?_eq_some_iff.mp last
  rw [List.flatMap_append, List.getLast?_append]
  rfl

theorem solid_of_edges (begins : s.Begins d spell) (ends : s.Ends d spell) :
    Solid (s.lexemes spell) ∧ (s.lexemes spell).head? ≠ some (.sign '(') := by
  obtain ⟨c, first, notBlank, notOpening⟩ := begins
  obtain ⟨e, last, notBlank'⟩ := ends
  rw [← Sql.flatMap_write_lexemes] at first last
  refine ⟨⟨?_, ?_⟩, fun opening => ?_⟩
  · cases front : (s.lexemes spell).head? with
    | none =>
      rw [List.head?_eq_none_iff.mp front] at first
      cases first
    | some x =>
      refine ⟨x, rfl, ?_⟩
      cases x with
      | sign b =>
        obtain rfl : b = c := by simpa [head_of_sign front] using first
        exact notBlank
      | _ => rfl
  · cases back : (s.lexemes spell).getLast? with
    | none =>
      rw [List.getLast?_eq_none_iff.mp back] at last
      cases last
    | some x =>
      refine ⟨x, rfl, ?_⟩
      cases x with
      | sign b =>
        obtain rfl : b = e := by simpa [getLast_of_sign back] using last
        exact notBlank'
      | _ => rfl
  · rw [head_of_sign opening] at first
    exact notOpening (by simpa using first.symm)

end Edges
end TypedSql
