import Mathlib.Data.List.Find
import TypedSql.Proofs.Sql.Lexer
import TypedSql.Proofs.Sql.View

namespace TypedSql

/-- The level of brackets after a text, unless one closes that was not open. -/
def nest : List Char → Nat → Option Nat
  | [], n => some n
  | '(' :: rest, n => nest rest (n + 1)
  | ')' :: rest, n =>
    match n with
    | 0 => none
    | n + 1 => nest rest n
  | _ :: rest, n => nest rest n

def calm : List Char → Bool
  | [] => true
  | [c] => c != ';' && c != '-' && c != '/'
  | c :: next :: rest =>
    c != ';' && !(c == '-' && next == '-') && !(c == '/' && next == '*') && calm (next :: rest)

def isQuote (c : Char) : Bool := ['\x22', '\x60', '[', ']', '\x27'].contains c

def isSigil (c : Char) : Bool := [':', '@', '$', '?'].contains c

def tidy (cs : List Char) : Bool := calm cs && cs.all fun c => !(isQuote c || isSigil c)

def nameSigns : List (List Char × NameKind) :=
  [("KEY UPDATE ".toList, .field), ("UPDATE ".toList, .table), ("FROM ".toList, .table),
    ("JOIN ".toList, .table), ("INTO ".toList, .table), (" AS ".toList, .outputAlias)]

/-- What a name after the text stands for, unless it is followed by a dot. -/
def roleAfter (cs : List Char) : NameKind :=
  match nameSigns.find? fun sign => sign.1.isSuffixOf cs with
  | some sign => sign.2
  | none => .field

def settled (cs : List Char) : Bool :=
  nameSigns.all fun sign => sign.1.isSuffixOf cs || !cs.isSuffixOf sign.1

/-- Where a walk along a statement stands. -/
inductive Edge where
  | start
  | before (kind : NameKind)
  | loose
  | qualifier
  | after
  deriving DecidableEq

def Edge.admits : Edge → List Char → Bool
  | .after, c :: _ => !isWordRest c && c != '.'
  | .qualifier, c :: _ => c == '.'
  | _, _ => true

def Edge.next (e : Edge) (cs : List Char) : Edge :=
  if e = .start ∨ settled cs = true then .before (roleAfter cs) else .loose

def Piece.step : Edge × Nat → Piece → Option (Edge × Nat)
  | (e, n), .text t =>
    if t.toList = [] then some (e, n)
    else if tidy t.toList && e.admits t.toList then
      (nest t.toList n).map fun m => (e.next t.toList, m)
    else none
  | (.before expected, n), .name kind _ =>
    if kind = expected then some (.after, n)
    else if kind = .table ∧ expected = .field then some (.qualifier, n)
    else none
  | (.before _, n), .literal _ | (.before _, n), .hole _ => some (.after, n)
  | _, _ => none

def Sql.walk (at_ : Edge × Nat) : Sql → Option (Edge × Nat)
  | [] => some at_
  | p :: rest => (p.step at_).bind fun next => Sql.walk next rest

theorem Sql.walk_append (at_ : Edge × Nat) (s t : Sql) :
    (s ++ t).walk at_ = (s.walk at_).bind fun next => t.walk next := by
  induction s generalizing at_ with
  | nil => rfl
  | cons p rest ih =>
    cases made : p.step at_ with
    | none => simp [Sql.walk, made]
    | some next => simp [Sql.walk, made, ih]

section Steps
variable {e : Edge} {n : Nat} {next : Edge × Nat}

theorem Piece.step_text {t : String} (stepped : Piece.step (e, n) (.text t) = some next) :
    (t.toList = [] ∧ next = (e, n)) ∨
      ∃ c cs m, t.toList = c :: cs ∧ tidy (c :: cs) = true ∧ e.admits (c :: cs) = true ∧
        nest (c :: cs) n = some m ∧ next = (e.next (c :: cs), m) := by
  unfold Piece.step at stepped
  cases spelled : t.toList with
  | nil => exact .inl ⟨rfl, by simpa [spelled] using stepped.symm⟩
  | cons c cs =>
    simp only [spelled, reduceCtorEq, ↓reduceIte, Bool.and_eq_true] at stepped
    split at stepped
    · rename_i fits
      obtain ⟨m, nested, rfl⟩ := Option.map_eq_some_iff.mp stepped
      exact .inr ⟨c, cs, m, rfl, fits.1, fits.2, nested, rfl⟩
    · cases stepped

theorem Piece.step_name {kind : NameKind} {name : String}
    (stepped : Piece.step (e, n) (.name kind name) = some next) :
    (e = .before kind ∧ next = (.after, n)) ∨
      (kind = .table ∧ e = .before .field ∧ next = (.qualifier, n)) := by
  cases e <;> simp only [Piece.step, reduceCtorEq] at stepped
  split at stepped
  · rename_i same
    exact .inl ⟨by rw [same], by simpa using stepped.symm⟩
  · split at stepped
    · rename_i qualifies
      exact .inr ⟨qualifies.1, by rw [qualifies.2], by simpa using stepped.symm⟩
    · cases stepped

theorem Piece.step_literal {l : String} (stepped : Piece.step (e, n) (.literal l) = some next) :
    ∃ kind, e = .before kind ∧ next = (.after, n) := by
  cases e <;> simp only [Piece.step, reduceCtorEq, Option.some.injEq] at stepped
  exact ⟨_, rfl, stepped.symm⟩

theorem Piece.step_hole {use : Hole} (stepped : Piece.step (e, n) (.hole use) = some next) :
    ∃ kind, e = .before kind ∧ next = (.after, n) := by
  cases e <;> simp only [Piece.step, reduceCtorEq, Option.some.injEq] at stepped
  exact ⟨_, rfl, stepped.symm⟩

end Steps

def isInert (c : Char) : Bool := isWordRest c || isSigil c

theorem ne_of_isInert {c d : Char} (inert : isInert c = true) (other : isInert d = false) :
    c ≠ d := by
  rintro rfl
  rw [inert] at other
  cases other

theorem isQuote_eq_false {c : Char} (inert : isInert c = true) : isQuote c = false := by
  have marks : ['\x22', '\x60', '[', ']', '\x27'].all (fun d => !isInert d) = true := by decide
  have apart : ∀ d ∈ ['\x22', '\x60', '[', ']', '\x27'], c ≠ d := fun d member =>
    ne_of_isInert inert (by simpa using List.all_eq_true.mp marks d member)
  simpa [isQuote] using apart

section Nesting

theorem nest_append (cs rest : List Char) (n : Nat) :
    nest (cs ++ rest) n = (nest cs n).bind (nest rest) := by
  fun_induction nest cs n with
  | case1 => rfl
  | case2 rest' n ih => simpa [nest] using ih
  | case3 rest' => simp [nest]
  | case4 rest' n ih => simpa [nest] using ih
  | case5 c rest' n notOpening notClosing ih => simpa [nest] using ih

theorem nest_add {cs : List Char} {n m : Nat} (nested : nest cs n = some m) (k : Nat) :
    nest cs (n + k) = some (m + k) := by
  fun_induction nest cs n with
  | case1 => cases nested; rfl
  | case2 rest n ih => simpa [nest, Nat.add_right_comm] using ih nested
  | case3 rest => cases nested
  | case4 rest n ih =>
    rw [Nat.succ_add]
    simpa [nest] using ih nested
  | case5 c rest n notOpening notClosing ih => simpa [nest] using ih nested

theorem nest_of_inert {cs : List Char} (inert : ∀ c ∈ cs, isInert c = true) (n : Nat) :
    nest cs n = some n := by
  induction cs with
  | nil => rfl
  | cons c cs ih =>
    have first := inert c List.mem_cons_self
    have opening : c ≠ '(' := ne_of_isInert first (by decide)
    have closing : c ≠ ')' := ne_of_isInert first (by decide)
    simpa [nest, opening, closing] using ih fun d member => inert d (List.mem_cons_of_mem _ member)

end Nesting

section Calm

theorem calm_append {cs rest : List Char} (first : calm cs = true) (second : calm rest = true) :
    calm (cs ++ rest) = true := by
  fun_induction calm cs with
  | case1 => exact second
  | case2 c =>
    cases rest with
    | nil => simpa [calm] using first
    | cons d rest => simp_all [calm]
  | case3 c d cs ih =>
    simp only [Bool.and_eq_true] at first
    have more := ih first.2
    simp only [List.cons_append] at more ⊢
    simp [calm, first, more]

theorem calm_of_inert {cs : List Char} (inert : ∀ c ∈ cs, isInert c = true) : calm cs = true := by
  induction cs with
  | nil => rfl
  | cons c cs ih =>
    have first := inert c List.mem_cons_self
    have more := ih fun d member => inert d (List.mem_cons_of_mem _ member)
    have terminator : c ≠ ';' := ne_of_isInert first (by decide)
    have dash : c ≠ '-' := ne_of_isInert first (by decide)
    have slash : c ≠ '/' := ne_of_isInert first (by decide)
    cases cs <;> simp [calm, terminator, dash, slash, more]

theorem occurs_of_calm {cs : List Char} (quiet : calm cs = true) :
    occurs [';'] cs = false ∧ occurs ['-', '-'] cs = false ∧ occurs ['/', '*'] cs = false := by
  fun_induction calm cs with
  | case1 => exact ⟨rfl, rfl, rfl⟩
  | case2 c =>
    simp only [Bool.and_eq_true, bne_iff_ne, ne_eq] at quiet
    simp [occurs, List.isPrefixOf, Ne.symm quiet.1.1]
  | case3 c d cs ih =>
    simp only [Bool.and_eq_true, bne_iff_ne, ne_eq] at quiet
    obtain ⟨⟨⟨terminator, dashes⟩, comment⟩, more⟩ := quiet
    obtain ⟨noTerminator, noDashes, noComment⟩ := ih more
    refine ⟨?_, ?_, ?_⟩
    · rw [occurs, noTerminator, Bool.or_false]
      simp [List.isPrefixOf, Ne.symm terminator]
    · rw [occurs, noDashes, Bool.or_false]
      simp only [List.isPrefixOf, Bool.and_true, BEq.comm (a := '-')]
      simpa [← not_and_or] using dashes
    · rw [occurs, noComment, Bool.or_false]
      simp only [List.isPrefixOf, Bool.and_true, BEq.comm (a := '/'), BEq.comm (a := '*')]
      simpa [← not_and_or] using comment

end Calm

section Text
variable {d : Dialect} {spell : Hole → String}

/-- Where every placeholder is spelled without special characters. -/
def SpelledInert (spell : Hole → String) : Prop := ∀ use, ∀ c ∈ (spell use).toList, isInert c = true

theorem isQuote_of_tidy {cs : List Char} (clean : tidy cs = true) {c : Char} (member : c ∈ cs) :
    isQuote c = false := by
  simp only [tidy, Bool.and_eq_true, List.all_eq_true] at clean
  have := clean.2 c member
  simp at this
  exact this.1

theorem glue_eq (c : Char) (tokens : List Token) :
    ∃ text rest, glue c tokens = .plain (c :: text) :: rest := by
  cases tokens with
  | nil => exact ⟨[], [], rfl⟩
  | cons token rest => cases token <;> exact ⟨_, _, rfl⟩

theorem ne_of_isQuote {c quote : Char} (other : isQuote c = false) (quotes : isQuote quote = true) :
    c ≠ quote := by
  rintro rfl
  rw [quotes] at other
  cases other

theorem isQuote_delimiters (d : Dialect) :
    isQuote d.delimiters.1 = true ∧ isQuote d.delimiters.2 = true := by
  cases d <;> decide

theorem head_of_walk (spell : Hole → String) {s : Sql} {e : Edge} {n : Nat} {last : Edge × Nat}
    (closed : e = .after ∨ e = .qualifier) (walked : s.walk (e, n) = some last) :
    ((∀ d, (s.write d spell).toList = []) ∧ s.tokens spell = [] ∧ last.1 = e) ∨
      ∃ c cs, tidy (c :: cs) = true ∧ e.admits (c :: cs) = true ∧
        (∀ d, (s.write d spell).toList.head? = some c) ∧
        ∃ text tokens, s.tokens spell = .plain (c :: text) :: tokens := by
  induction s with
  | nil => exact .inl ⟨fun _ => rfl, rfl, by cases walked; rfl⟩
  | cons p rest ih =>
    obtain ⟨next, stepped, more⟩ := Option.bind_eq_some_iff.mp walked
    cases p with
    | text t =>
      rcases Piece.step_text stepped with ⟨empty, rfl⟩ | ⟨c, cs, m, spelled, clean, admitted, -, rfl⟩
      · simpa [Piece.write, Sql.tokens, empty] using ih more
      · refine .inr ⟨c, cs, clean, admitted, by simp [Piece.write, spelled], ?_⟩
        rw [Sql.tokens, spelled]
        exact glue_eq c _
    | _ => rcases closed with rfl | rfl <;> simp [Piece.step] at stepped

theorem head_write_of_walk {s : Sql} {e : Edge} {n : Nat} {last : Edge × Nat}
    (closed : e = .after ∨ e = .qualifier) (walked : s.walk (e, n) = some last) {quote : Char}
    (quotes : isQuote quote = true) : (s.write d spell).toList.head? ≠ some quote := by
  rcases head_of_walk spell closed walked with ⟨empty, -, -⟩ | ⟨c, cs, clean, -, written, -⟩
  · simp [empty]
  · have other := isQuote_of_tidy clean List.mem_cons_self
    simpa [written] using ne_of_isQuote other quotes

/-- The text of a walked statement falls into its pieces again. -/
theorem lex_write (inert : SpelledInert spell) {s : Sql} {at_ last : Edge × Nat}
    (walked : s.walk at_ = some last) :
    d.lex (s.write d spell).toList = some (s.tokens spell) := by
  obtain ⟨opening, closing⟩ := isQuote_delimiters d
  have single : isQuote '\x27' = true := by decide
  -- along the pieces: what the walk knows of the rest keeps quotes from following on quotes
  induction s generalizing at_ with
  | nil => rw [Sql.toList_write_nil, Dialect.lex]; rfl
  | cons p rest ih =>
    obtain ⟨e, n⟩ := at_
    obtain ⟨next, stepped, more⟩ := Option.bind_eq_some_iff.mp walked
    have lexed := ih more
    rw [Sql.toList_write_cons]
    cases p with
    | text t =>
      have unquoted : ∀ c ∈ t.toList, c ≠ d.delimiters.1 ∧ c ≠ '\x27' := by
        intro c member
        rcases Piece.step_text stepped with ⟨empty, -⟩ | ⟨_, _, _, spelled, clean, -, -, -⟩
        · simp [empty] at member
        · have other := isQuote_of_tidy clean (spelled ▸ member)
          exact ⟨ne_of_isQuote other opening, ne_of_isQuote other single⟩
      rw [Piece.write, Dialect.lex_plain _ unquoted, lexed]
      rfl
    | name kind name =>
      -- a second closing quote would count as a doubled one
      have ends : (Sql.write d spell rest).toList.head? ≠ some d.delimiters.2 := by
        rcases Piece.step_name stepped with ⟨-, rfl⟩ | ⟨-, -, rfl⟩
        · exact head_write_of_walk (.inl rfl) more closing
        · exact head_write_of_walk (.inr rfl) more closing
      rw [Piece.write, Dialect.lex_name _ ends, lexed]
      rfl
    | literal l =>
      obtain ⟨_, -, rfl⟩ := Piece.step_literal stepped
      rw [Piece.write, Dialect.lex_literal _ (head_write_of_walk (.inl rfl) more single), lexed]
      rfl
    | hole use =>
      have unquoted : ∀ c ∈ (spell use).toList, c ≠ d.delimiters.1 ∧ c ≠ '\x27' := by
        intro c member
        have other := isQuote_eq_false (inert use c member)
        exact ⟨ne_of_isQuote other opening, ne_of_isQuote other single⟩
      rw [Piece.write, Dialect.lex_plain _ unquoted, lexed]
      rfl

/-- The plain text of a walked statement is calm and keeps the level of brackets that the walk
    has counted. -/
theorem plainText_of_walk (inert : SpelledInert spell) {s : Sql} {e : Edge} {n : Nat}
    {last : Edge × Nat} (walked : s.walk (e, n) = some last) :
    calm (plainText (s.tokens spell)) = true ∧ nest (plainText (s.tokens spell)) n = some last.2 := by
  -- names and literals leave no plain text, so only text and placeholders count
  induction s generalizing e n with
  | nil => cases walked; exact ⟨rfl, rfl⟩
  | cons p rest ih =>
    obtain ⟨⟨e', m⟩, stepped, more⟩ := Option.bind_eq_some_iff.mp walked
    obtain ⟨quiet, nested⟩ := ih more
    cases p with
    | text t =>
      rw [Sql.tokens, plainText_glue]
      rcases Piece.step_text stepped with ⟨empty, same⟩ | ⟨c, cs, _, spelled, clean, -, deeper, same⟩
      · cases same
        rw [empty]
        exact ⟨quiet, nested⟩
      · cases same
        rw [spelled, nest_append, deeper]
        rw [tidy, Bool.and_eq_true] at clean
        exact ⟨calm_append clean.1 quiet, nested⟩
    | name kind name =>
      rcases Piece.step_name stepped with ⟨-, same⟩ | ⟨-, -, same⟩ <;> cases same <;>
        exact ⟨quiet, nested⟩
    | literal l =>
      obtain ⟨_, -, same⟩ := Piece.step_literal stepped
      cases same
      exact ⟨quiet, nested⟩
    | hole use =>
      obtain ⟨_, -, same⟩ := Piece.step_hole stepped
      cases same
      rw [Sql.tokens, plainText_glue, nest_append, nest_of_inert (inert use)]
      exact ⟨calm_append (calm_of_inert (inert use)) quiet, nested⟩

end Text

def roleAmong (before : List Char) : List Token → NameKind
  | .plain ('.' :: _) :: _ => .table
  | _ => roleAfter before

/-- The names among tokens, each with what it stands for; `before` is the text in front. -/
def namesIn (before : List Char) : List Token → List Occurrence
  | [] => []
  | .plain text :: rest => namesIn text rest
  | .literal _ :: rest => namesIn [] rest
  | .name n :: rest => (roleAmong before rest, n) :: namesIn [] rest

def Token.name? : Token → Option String
  | .name n => some n
  | _ => none

theorem map_namesIn (before : List Char) (tokens : List Token) :
    (namesIn before tokens).map Prod.snd = tokens.filterMap Token.name? := by
  induction tokens generalizing before with
  | nil => rfl
  | cons token rest ih => cases token <;> simp [namesIn, Token.name?, List.filterMap_cons, ih]

section Roles
variable {spell : Hole → String}

theorem roleAfter_append {cs : List Char} (full : settled cs = true) (before : List Char) :
    roleAfter (before ++ cs) = roleAfter cs := by
  have same : ∀ sign ∈ nameSigns, sign.1.isSuffixOf (before ++ cs) = sign.1.isSuffixOf cs := by
    intro sign member
    have whole := List.all_eq_true.mp full sign member
    rw [Bool.eq_iff_iff, List.isSuffixOf_iff_suffix, List.isSuffixOf_iff_suffix]
    constructor
    · intro ends
      -- a sign that ends the whole text lies within `cs` or reaches back over its start
      rcases List.suffix_or_suffix_of_suffix ends (List.suffix_append before cs) with inside | covers
      · exact inside
      · simp only [Bool.or_eq_true, Bool.not_eq_true', ← Bool.not_eq_true,
          List.isSuffixOf_iff_suffix] at whole
        rcases whole with inside | apart
        · exact inside
        · exact absurd covers apart
    · intro ends
      exact ends.trans (List.suffix_append before cs)
  unfold roleAfter
  rw [List.find?_congr same]

theorem foldr_glue {tokens : List Token} (closed : ∀ text rest, tokens ≠ .plain text :: rest)
    {cs : List Char} (full : cs ≠ []) : cs.foldr glue tokens = .plain cs :: tokens := by
  induction cs with
  | nil => exact absurd rfl full
  | cons c cs ih =>
    cases cs with
    | nil =>
      cases tokens with
      | nil => rfl
      | cons token rest => cases token <;> first | rfl | exact absurd rfl (closed _ _)
    | cons d cs => rw [List.foldr_cons, ih (by simp)]; rfl

theorem namesIn_glue {tokens : List Token} (closed : ∀ text rest, tokens ≠ .plain text :: rest)
    (before : List Char) : namesIn [] (before.foldr glue tokens) = namesIn before tokens := by
  cases before with
  | nil => rfl
  | cons c cs => rw [foldr_glue closed (by simp), namesIn]

def Edge.Stands (e : Edge) (before : List Char) : Prop :=
  (e = .start → before = []) ∧ ∀ kind, e = .before kind → roleAfter before = kind

theorem Edge.Stands.next {e : Edge} {before : List Char} (stands : e.Stands before)
    (cs : List Char) : (e.next cs).Stands (before ++ cs) := by
  unfold Edge.next
  split
  · rename_i known
    refine ⟨by simp, fun kind same => ?_⟩
    obtain rfl : roleAfter cs = kind := by simpa using same
    rcases known with start | full
    · rw [stands.1 start, List.nil_append]
    · exact roleAfter_append full before
  · exact ⟨by simp, by simp⟩

/-- The text alone tells what every name of a walked statement stands for. -/
theorem namesIn_of_walk {s : Sql} {e : Edge} {n : Nat} {last : Edge × Nat}
    (walked : s.walk (e, n) = some last) (finished : last.1 ≠ .qualifier) {before : List Char}
    (stands : e.Stands before) :
    namesIn [] (before.foldr glue (s.tokens spell)) = s.names := by
  -- `before` is the text since the last piece that is none; it has to go along with the walk
  induction s generalizing e n before with
  | nil =>
    rw [Sql.tokens, namesIn_glue (by simp)]
    rfl
  | cons p rest ih =>
    obtain ⟨next, stepped, more⟩ := Option.bind_eq_some_iff.mp walked
    cases p with
    | text t =>
      have named : Sql.names (.text t :: rest) = Sql.names rest := rfl
      rw [Sql.tokens, ← List.foldr_append, named]
      rcases Piece.step_text stepped with ⟨empty, rfl⟩ | ⟨c, cs, _, spelled, -, -, -, rfl⟩
      · rw [empty, List.append_nil]
        exact ih more stands
      · rw [spelled]
        exact ih more (stands.next (c :: cs))
    | name kind name =>
      have named : Sql.names (.name kind name :: rest) = (kind, name) :: Sql.names rest := rfl
      rw [Sql.tokens, namesIn_glue (by simp), namesIn, named]
      rcases Piece.step_name stepped with ⟨rfl, rfl⟩ | ⟨rfl, rfl, rfl⟩
      · have tail : namesIn [] (([] : List Char).foldr glue _) = _ := ih more ⟨by simp, by simp⟩
        -- no dot follows, so the text in front decides
        have role : roleAmong before (Sql.tokens spell rest) = kind := by
          rcases head_of_walk spell (.inl rfl) more with
            ⟨-, empty, -⟩ | ⟨c, _, -, admitted, -, text, tokens, made⟩
          · rw [empty]
            exact stands.2 kind rfl
          · have noDot : c ≠ '.' := by
              simp only [Edge.admits, Bool.and_eq_true, bne_iff_ne] at admitted
              exact admitted.2
            rw [made, ← stands.2 kind rfl, roleAmong]
            simp [noDot]
        rw [role]
        exact congrArg _ tail
      · have tail : namesIn [] (([] : List Char).foldr glue _) = _ := ih more ⟨by simp, by simp⟩
        -- a qualifier is never the last piece, and only a dot can follow it
        have role : roleAmong before (Sql.tokens spell rest) = .table := by
          rcases head_of_walk spell (.inr rfl) more with
            ⟨-, -, open_⟩ | ⟨c, _, -, admitted, -, text, tokens, made⟩
          · exact absurd open_ finished
          · obtain rfl : c = '.' := by simpa [Edge.admits] using admitted
            rw [made]
            rfl
        rw [role]
        exact congrArg _ tail
    | literal l =>
      obtain ⟨_, -, rfl⟩ := Piece.step_literal stepped
      have named : Sql.names (.literal l :: rest) = Sql.names rest := rfl
      have tail : namesIn [] (([] : List Char).foldr glue _) = _ := ih more ⟨by simp, by simp⟩
      rw [Sql.tokens, namesIn_glue (by simp), namesIn, named]
      exact tail
    | hole use =>
      obtain ⟨_, -, rfl⟩ := Piece.step_hole stepped
      have named : Sql.names (.hole use :: rest) = Sql.names rest := rfl
      rw [Sql.tokens, ← List.foldr_append, named]
      exact ih more ⟨by simp, by simp⟩

end Roles

end TypedSql
