import TypedSql.Proofs.Sql.Walk

namespace TypedSql

/-- What a part of a statement asks of the place where it starts, or says of the place where it
    ends: that anything may stand there but a qualifier, that text has been read last, that a name
    of some kind may come, or that nothing stands before. -/
inductive Stance where
  | any
  | clear
  | ready (kind : NameKind)
  | start
  deriving DecidableEq

def Stance.Holds : Stance → Edge → Prop
  | .any, e => e ≠ .qualifier
  | .clear, e => e ≠ .qualifier ∧ e ≠ .after
  | .ready kind, e => e = .before kind
  | .start, e => e = .start

theorem Stance.Holds.admits {P : Stance} {e : Edge} {cs : List Char} (stands : P.Holds e)
    (separated : ¬ P = .any ∨ Edge.after.admits cs = true) : e.admits cs = true := by
  cases P with
  | any =>
    have admitted : Edge.after.admits cs = true := by simpa using separated
    cases e with
    | after => exact admitted
    | qualifier => exact absurd rfl stands
    | _ => rfl
  | clear =>
    cases e with
    | after => exact absurd rfl stands.2
    | qualifier => exact absurd rfl stands.1
    | _ => rfl
  | ready kind => cases (show e = .before kind from stands); rfl
  | start => cases (show e = .start from stands); rfl

/-- From every place as asked, at every level of brackets that is `k` above some other, the part
    leads to a place as said, `l` above that other. -/
def Sql.Runs (P : Stance) (k : Nat) (s : Sql) (Q : Stance) (l : Nat) : Prop :=
  ∀ e n, P.Holds e → ∃ e', Q.Holds e' ∧ s.walk (e, n + k) = some (e', n + l)

def fits (P : Stance) (cs : List Char) (k : Nat) (Q : Stance) (l : Nat) : Bool :=
  cs != [] && tidy cs && nest cs k == some l &&
    (P != .any || Edge.after.admits cs) &&
    match Q with
    | .any | .clear => true
    | .ready kind => (P == .start || settled cs) && roleAfter cs == kind
    | .start => false

namespace Sql.Runs
variable {P Q R : Stance} {k l m : Nat} {s t : Sql}

theorem append (first : Runs P k s Q l) (second : Runs Q l t R m) : Runs P k (s ++ t) R m := by
  intro e n stands
  obtain ⟨e', stands', walked⟩ := first e n stands
  obtain ⟨e'', stands'', walked'⟩ := second e' n stands'
  exact ⟨e'', stands'', by rw [walk_append, walked, Option.bind_some, walked']⟩

theorem nil : Runs P k [] P k := fun e _ stands => ⟨e, stands, rfl⟩

theorem frame (runs : Runs P k s Q l) (j : Nat) : Runs P (k + j) s Q (l + j) := by
  intro e n stands
  obtain ⟨e', stands', walked⟩ := runs e (n + j) stands
  exact ⟨e', stands', by rwa [Nat.add_comm k, Nat.add_comm l, ← Nat.add_assoc, ← Nat.add_assoc]⟩

theorem weaken {P' Q' : Stance} (runs : Runs P k s Q l) (asks : ∀ e, P'.Holds e → P.Holds e)
    (tells : ∀ e, Q.Holds e → Q'.Holds e) : Runs P' k s Q' l := by
  intro e n stands
  obtain ⟨e', stands', walked⟩ := runs e n (asks e stands)
  exact ⟨e', tells e' stands', walked⟩

theorem text {t : String} (fitting : fits P t.toList k Q l = true) : Runs P k (sql t) Q l := by
  intro e n stands
  simp only [fits, Bool.and_eq_true, bne_iff_ne, ne_eq, beq_iff_eq, Bool.or_eq_true] at fitting
  obtain ⟨⟨⟨⟨full, clean⟩, nested⟩, separated⟩, leads⟩ := fitting
  refine ⟨e.next t.toList, ?_, ?_⟩
  · unfold Edge.next
    cases Q with
    | any => split <;> simp [Stance.Holds]
    | clear => split <;> simp [Stance.Holds]
    | ready kind =>
      simp only [Bool.and_eq_true, Bool.or_eq_true, beq_iff_eq] at leads
      obtain ⟨known, rfl⟩ := leads
      rcases known with rfl | full
      · have start : e = .start := stands
        simp [start, Stance.Holds]
      · simp [full, Stance.Holds]
    | start => cases leads
  · have deeper := nest_add nested n
    rw [Nat.add_comm k, Nat.add_comm l] at deeper
    have admitted := stands.admits separated
    simp [sql, walk, Piece.step, full, clean, admitted, deeper]

theorem empty {t : String} (blank : t.toList = []) : Runs P k (sql t) P k := by
  intro e n stands
  exact ⟨e, stands, by simp [sql, walk, Piece.step, blank]⟩

theorem name (kind : NameKind) (n : String) : Runs (.ready kind) k [.name kind n] .any k := by
  rintro _ m rfl
  exact ⟨.after, by simp [Stance.Holds], by simp [walk, Piece.step]⟩

theorem literal (l : String) (kind : NameKind) : Runs (.ready kind) k [.literal l] .any k := by
  rintro _ m rfl
  exact ⟨.after, by simp [Stance.Holds], rfl⟩

theorem hole (use : Hole) (kind : NameKind) : Runs (.ready kind) k [.hole use] .any k := by
  rintro _ m rfl
  exact ⟨.after, by simp [Stance.Holds], rfl⟩

end Sql.Runs

def Phrase (s : Sql) : Prop := s.Runs (.ready .field) 0 .any 0

def Tail (s : Sql) : Prop := s.Runs .any 0 .any 0

def Worded (s : Sql) : Prop := s.Runs .clear 0 .any 0

section Building
variable {k l : Nat} {s t : Sql} {pre mid post : String}

theorem Phrase.inside (phrase : Phrase s) (k : Nat) : s.Runs (.ready .field) k .any k := by
  have framed := Sql.Runs.frame phrase k
  rwa [Nat.zero_add] at framed

theorem Worded.inside (worded : Worded s) (k : Nat) : s.Runs .clear k .any k := by
  have framed := Sql.Runs.frame worded k
  rwa [Nat.zero_add] at framed

theorem Phrase.nil : Phrase [] :=
  Sql.Runs.weaken Sql.Runs.nil (fun _ stands => stands) (by rintro _ rfl; simp [Stance.Holds])

theorem Phrase.text (fitting : fits (.ready .field) pre.toList 0 .any 0 = true) : Phrase (sql pre) :=
  Sql.Runs.text fitting

theorem Phrase.enclosed (opens : fits (.ready .field) pre.toList 0 (.ready .field) k = true)
    (closes : fits .any post.toList k .any 0 = true) (inner : Phrase s) :
    Phrase (sql pre ++ s ++ sql post) :=
  ((Sql.Runs.text opens).append (inner.inside k)).append (.text closes)

theorem Phrase.linked (links : fits .any mid.toList 0 (.ready .field) 0 = true) (left : Phrase s)
    (right : Phrase t) : Phrase (s ++ sql mid ++ t) :=
  (Sql.Runs.append left (.text links)).append right

theorem Phrase.linkedClosed (links : fits .any mid.toList 0 (.ready .field) k = true)
    (closes : fits .any post.toList k .any 0 = true) (left : Phrase s) (right : Phrase t) :
    Phrase (s ++ sql mid ++ t ++ sql post) :=
  ((Sql.Runs.append left (.text links)).append (right.inside k)).append (.text closes)

theorem Phrase.paired (opens : fits (.ready .field) pre.toList 0 (.ready .field) k = true)
    (links : fits .any mid.toList k (.ready .field) l = true)
    (closes : fits .any post.toList l .any 0 = true) (left : Phrase s) (right : Phrase t) :
    Phrase (sql pre ++ s ++ sql mid ++ t ++ sql post) :=
  ((((Sql.Runs.text opens).append (left.inside k)).append (.text links)).append
    (right.inside l)).append (.text closes)

theorem Phrase.followed (phrase : Phrase s) (tail : Tail t) : Phrase (s ++ t) :=
  Sql.Runs.append phrase tail

theorem Tail.nil : Tail [] := Sql.Runs.nil

theorem Tail.blank : Tail (sql "") := Sql.Runs.empty rfl

theorem Tail.text (fitting : fits .any pre.toList 0 .any 0 = true) :
    Tail (sql pre) := Sql.Runs.text fitting

theorem Tail.led (leads : fits .any pre.toList 0 (.ready .field) 0 = true)
    (inner : Phrase s) : Tail (sql pre ++ s) :=
  (Sql.Runs.text leads).append inner

theorem Tail.flatten {parts : List Sql} (each : ∀ p ∈ parts, Tail p) :
    Tail parts.flatten := by
  induction parts with
  | nil => exact .nil
  | cons p rest ih =>
    have others := ih fun q member => each q (List.mem_cons_of_mem _ member)
    exact Sql.Runs.append (each p List.mem_cons_self) others

theorem Phrase.join (separates : fits .any mid.toList 0 (.ready .field) 0 = true)
    {parts : List Sql} (each : ∀ p ∈ parts, Phrase p) : Phrase (Sql.join mid parts) := by
  induction parts with
  | nil => exact .nil
  | cons p rest ih =>
    have first := each p List.mem_cons_self
    cases rest with
    | nil => exact first
    | cons q rest =>
      exact .linked separates first
        (ih fun r member => each r (List.mem_cons_of_mem _ member))

theorem Phrase.commaList {parts : List Sql} (each : ∀ p ∈ parts, Phrase p) :
    Phrase (Sql.commaList parts) := .join (by decide) each

theorem Worded.join {parts : List Sql} (each : ∀ p ∈ parts, Worded p) :
    Worded (Sql.join " " parts) := by
  induction parts with
  | nil => exact Sql.Runs.weaken Sql.Runs.nil (fun _ stands => stands) fun _ stands => stands.1
  | cons p rest ih =>
    have first := each p List.mem_cons_self
    cases rest with
    | nil => exact first
    | cons q rest =>
      have space : (sql " ").Runs .any 0 .clear 0 := .text (by decide)
      exact (Sql.Runs.append first space).append
        (ih fun r member => each r (List.mem_cons_of_mem _ member))

end Building

def Even (cs : List Char) : Prop := tidy cs = true ∧ nest cs 0 = some 0

instance (cs : List Char) : Decidable (Even cs) := inferInstanceAs (Decidable (_ ∧ _))

section Even
variable {cs rest : List Char} {t : String}

theorem tidy_append (first : tidy cs = true) (second : tidy rest = true) :
    tidy (cs ++ rest) = true := by
  simp only [tidy, Bool.and_eq_true, List.all_append] at first second ⊢
  exact ⟨calm_append first.1 second.1, first.2, second.2⟩

theorem Even.append (first : Even cs) (second : Even rest) : Even (cs ++ rest) :=
  ⟨tidy_append first.1 second.1, by rw [nest_append, first.2]; exact second.2⟩

theorem Even.concat {u : String} (first : Even t.toList) (second : Even u.toList) :
    Even (t ++ u).toList := by
  rw [String.toList_append]
  exact first.append second

theorem Even.of_word (word : ∀ c ∈ cs, isWordRest c = true) : Even cs := by
  have inert : ∀ c ∈ cs, isInert c = true := fun c member => by simp [isInert, word c member]
  refine ⟨?_, nest_of_inert inert 0⟩
  simp only [tidy, Bool.and_eq_true, calm_of_inert inert, List.all_eq_true, true_and]
  intro c member
  have noSigil : isSigil c = false := by
    have marks : [':', '@', '$', '?'].all (fun d => !isWordRest d) = true := by decide
    by_contra sigil
    simp only [isSigil, List.contains_eq_mem, decide_eq_true_eq, Bool.not_eq_false] at sigil
    have letter := word c member
    have other := List.all_eq_true.mp marks c sigil
    simp [letter] at other
  simp [isQuote_eq_false (inert c member), noSigil]

theorem Even.number (n : Nat) : Even (toString n).toList := by
  refine .of_word fun c member => ?_
  rw [Nat.toString_eq_ofList_toDigits, String.toList_ofList] at member
  simp [isWordRest, Char.isAlphanum, Nat.isDigit_of_mem_toDigits (by omega) (by omega) member]

theorem Worded.of_even (even : Even t.toList) (full : t.toList ≠ []) : Worded (sql t) :=
  Sql.Runs.text (by simp [fits, full, even.1, even.2])

theorem Tail.of_even (even : Even t.toList)
    (separated : t.toList ≠ [] → Edge.after.admits t.toList = true) : Tail (sql t) := by
  by_cases blank : t.toList = []
  · exact Sql.Runs.empty blank
  · exact Sql.Runs.text (by simp [fits, blank, even.1, even.2, separated blank])

theorem Tail.of_start {pre post : String} (fitting : fits .any pre.toList 0 .any 0 = true)
    (rest : Even post.toList) : Tail (sql (pre ++ post)) := by
  simp only [fits, Bool.and_eq_true, bne_iff_ne, ne_eq, beq_iff_eq] at fitting
  obtain ⟨⟨⟨⟨full, clean⟩, nested⟩, separated⟩, -⟩ := fitting
  refine Tail.of_even ?_ fun _ => ?_ <;> rw [String.toList_append]
  · exact Even.append ⟨clean, nested⟩ rest
  · cases spelled : pre.toList with
    | nil => exact absurd spelled full
    | cons c cs => simpa [spelled, Edge.admits] using separated

end Even

end TypedSql
