import TypedSql.Proofs.Render.Asked
import TypedSql.Proofs.Render.Hushed
import TypedSql.Proofs.Sql.Page

namespace TypedSql

def Sql.visible (spell : Hole → String) (s : Sql) : List Lexeme := TypedSql.visible (s.lexemes spell)

/-- That a text is what a reading query is rendered to for SQL Server. -/
def Query.Writes (spell : Hole → String) (q : Query) (text : List Lexeme) : Prop :=
  (q.operation = .select ∨ q.operation = .count) ∧
    ∃ c s, c.dialect = .sqlServer ∧ Renders c (.query q) s ∧ text = s.visible spell

/-- That the queries in the brackets of a text are those that are asked for. Others that stand there
    keep to the rules. -/
structure Contains (spell : Hole → String) (ls : List Lexeme) (asked : Set Query) : Prop where
  told : ∀ inner ∈ nestedQueries ls,
    (page inner).Admitted true ∨ ∃ q ∈ asked, q.Writes spell inner
  shown : ∀ q ∈ asked, ∃ inner ∈ nestedQueries ls, q.Writes spell inner

/-- The same of a text that can stand between others: it neither begins a query nor leaves one
    open. -/
structure Houses (spell : Hole → String) (ls : List Lexeme) (asked : Set Query) : Prop extends
    Contains spell ls asked where
  begins : selects ls = false
  parted : ∀ rest, selects rest = false →
    nestedQueries (ls ++ rest) = nestedQueries ls ++ nestedQueries rest

def selectless (ls : List Lexeme) : Bool := ls.all fun x => !x.reads "SELECT"

section Texts
variable {spell : Hole → String} {ls rest : List Lexeme} {asked others : Set Query}

theorem Contains.append (parted : nestedQueries (ls ++ rest) = nestedQueries ls ++ nestedQueries rest)
    (first : Contains spell ls asked) (second : Contains spell rest others) :
    Contains spell (ls ++ rest) (asked ∪ others) where
  told := by
    intro inner member
    rcases List.mem_append.mp (parted ▸ member) with member | member
    · rcases first.told inner member with admitted | ⟨q, inside, writes⟩
      · exact .inl admitted
      · exact .inr ⟨q, .inl inside, writes⟩
    · rcases second.told inner member with admitted | ⟨q, inside, writes⟩
      · exact .inl admitted
      · exact .inr ⟨q, .inr inside, writes⟩
  shown := by
    rintro q (inside | inside)
    · obtain ⟨inner, member, writes⟩ := first.shown q inside
      exact ⟨inner, parted ▸ List.mem_append_left _ member, writes⟩
    · obtain ⟨inner, member, writes⟩ := second.shown q inside
      exact ⟨inner, parted ▸ List.mem_append_right _ member, writes⟩

theorem selects_append_eq_false (first : selects ls = false) (second : selects rest = false) :
    selects (ls ++ rest) = false := by
  cases ls with
  | nil => exact second
  | cons x ls => exact first

theorem Houses.append (first : Houses spell ls asked) (second : Houses spell rest others) :
    Houses spell (ls ++ rest) (asked ∪ others) where
  toContains := first.toContains.append (first.parted rest second.begins) second.toContains
  begins := selects_append_eq_false first.begins second.begins
  parted := by
    intro more begins
    rw [List.append_assoc, first.parted _ (selects_append_eq_false second.begins begins),
      second.parted more begins, first.parted rest second.begins, List.append_assoc]

theorem selects_of_selectless (none : selectless ls = true) : selects ls = false := by
  cases ls with
  | nil => rfl
  | cons x ls =>
    simp only [selectless, List.all_cons, Bool.and_eq_true, Bool.not_eq_true'] at none
    exact none.1

theorem nestedQueries_of_selectless (none : selectless ls = true) (begins : selects rest = false) :
    nestedQueries (ls ++ rest) = nestedQueries rest := by
  induction ls with
  | nil => rfl
  | cons x ls ih =>
    have others : selectless ls = true := by
      simp only [selectless, List.all_cons, Bool.and_eq_true] at none ⊢
      exact none.2
    have next := selects_append_eq_false (selects_of_selectless others) begins
    rw [List.cons_append, nestedQueries, next, if_neg (by simp), ih others]

theorem Houses.of_selectless (none : selectless ls = true) : Houses spell ls ∅ := by
  have empty : nestedQueries ls = [] := by
    have alone : nestedQueries (ls ++ []) = _ := nestedQueries_of_selectless none rfl
    rwa [List.append_nil] at alone
  exact {
    told := by simp [empty]
    shown := by simp
    begins := selects_of_selectless none
    parted := by
      intro rest begins
      rw [nestedQueries_of_selectless none begins, empty, List.nil_append] }

theorem Houses.bracketed {stop : Lexeme → Bool} {own : Set Query} (query : selects ls = true)
    (settles : still stop 0 ls = some 0) (inner : Contains spell ls asked)
    (told : (page ls).Admitted true ∨ ∃ q ∈ own, q.Writes spell ls)
    (shown : ∀ q ∈ own, q.Writes spell ls) :
    Houses spell (.sign '(' :: (ls ++ [Lexeme.sign ')'])) (own ∪ asked) := by
  have nested (rest : List Lexeme) : nestedQueries (.sign '(' :: (ls ++ Lexeme.sign ')' :: rest)) =
      ls :: (nestedQueries ls ++ nestedQueries rest) := nestedQueries_bracketed query settles
  have alone : nestedQueries (.sign '(' :: (ls ++ [Lexeme.sign ')'])) = ls :: nestedQueries ls := by
    rw [nested, nestedQueries, List.append_nil]
  exact {
    told := by
      rw [alone]
      refine List.forall_mem_cons.mpr ⟨?_, fun text member => ?_⟩
      · rcases told with admitted | ⟨q, given, writes⟩
        · exact .inl admitted
        · exact .inr ⟨q, .inl given, writes⟩
      · rcases inner.told text member with admitted | ⟨q, given, writes⟩
        · exact .inl admitted
        · exact .inr ⟨q, .inr given, writes⟩
    shown := by
      rw [alone]
      rintro q (given | given)
      · exact ⟨ls, List.mem_cons_self, shown q given⟩
      · obtain ⟨text, member, writes⟩ := inner.shown q given
        exact ⟨text, List.mem_cons_of_mem _ member, writes⟩
    begins := rfl
    parted := by
      intro rest begins
      rw [alone, List.cons_append, List.append_assoc, List.singleton_append, nested]
      rfl }

end Texts

/-- That a part goes on without a stop from one level of brackets to another, and which queries it
    asks in brackets. -/
def Sql.Embeds (stop : Lexeme → Bool) (spell : Hole → String) (p : Nat) (s : Sql) (q : Nat)
    (asked : Set Query) : Prop :=
  still stop p (s.visible spell) = some q ∧ Houses spell (s.visible spell) asked

def embedsText (stop : Lexeme → Bool) (cs : List Char) (p q : Nat) : Bool :=
  still stop p (visible (cs.foldr gather [])) == some q &&
    selectless (visible (cs.foldr gather []))

def embedsIn (stop : Lexeme → Bool) (cs : List Char) (p q : Nat) : Bool :=
  closed cs && embedsText stop cs p q

def embedsOut (stop : Lexeme → Bool) (cs : List Char) (p q : Nat) : Bool :=
  opened cs && embedsText stop cs p q

section Visible
variable {spell : Hole → String} {s t : Sql} {pre mid post : String}

theorem Sql.visible_append (apart : Apart (t.lexemes spell)) :
    (s ++ t).visible spell = s.visible spell ++ t.visible spell := by
  rw [visible, lexemes_append apart, TypedSql.visible_append]
  rfl

theorem Sql.visible_sql : (sql pre).visible spell = TypedSql.visible (pre.toList.foldr gather []) := by
  rw [visible, lexemes_sql]

theorem Sql.visible_led (ends : closed pre.toList = true) :
    (sql pre ++ s).visible spell =
      TypedSql.visible (pre.toList.foldr gather []) ++ s.visible spell := by
  rw [visible, lexemes_closed ends, TypedSql.visible_append]
  rfl

theorem Sql.visible_closed (begins : opened post.toList = true) :
    (s ++ sql post).visible spell =
      s.visible spell ++ TypedSql.visible (post.toList.foldr gather []) := by
  rw [visible, lexemes_opened begins, TypedSql.visible_append]
  rfl

theorem Sql.visible_linked (begins : opened mid.toList = true) (ends : closed mid.toList = true) :
    (s ++ sql mid ++ t).visible spell =
      s.visible spell ++ (TypedSql.visible (mid.toList.foldr gather []) ++ t.visible spell) := by
  rw [visible, lexemes_linked begins ends, TypedSql.visible_append, TypedSql.visible_append]
  rfl

end Visible

namespace Sql.Embeds
variable {stop stop' : Lexeme → Bool} {spell : Hole → String} {p q r o k : Nat} {s t : Sql}
  {pre mid post : String} {asked others : Set Query}

theorem chained {ls rest : List Lexeme}
    (first : still stop p ls = some q ∧ Houses spell ls asked)
    (second : still stop q rest = some r ∧ Houses spell rest others) :
    still stop p (ls ++ rest) = some r ∧ Houses spell (ls ++ rest) (asked ∪ others) := by
  refine ⟨?_, first.2.append second.2⟩
  rw [still_append, first.1]
  exact second.1

theorem congr (same : asked = others) (inner : s.Embeds stop spell p q asked) :
    s.Embeds stop spell p q others := same ▸ inner

theorem append (apart : Apart (t.lexemes spell)) (first : s.Embeds stop spell p q asked)
    (second : t.Embeds stop spell q r others) :
    (s ++ t).Embeds stop spell p r (asked ∪ others) := by
  rw [Embeds, visible_append apart]
  exact chained first second

theorem fixed {cs : List Char} (checked : embedsText stop cs p q = true) :
    still stop p (TypedSql.visible (cs.foldr gather [])) = some q ∧
      Houses spell (TypedSql.visible (cs.foldr gather [])) ∅ := by
  simp only [embedsText, Bool.and_eq_true, beq_iff_eq] at checked
  exact ⟨checked.1, .of_selectless checked.2⟩

theorem nil : Embeds stop spell p [] p ∅ := ⟨rfl, .of_selectless rfl⟩

theorem text (checked : embedsText stop pre.toList p q = true) :
    (sql pre).Embeds stop spell p q ∅ := by
  rw [Embeds, visible_sql]
  exact fixed checked

theorem led (leading : embedsIn stop pre.toList p q = true) (inner : s.Embeds stop spell q r asked) :
    (sql pre ++ s).Embeds stop spell p r asked := by
  simp only [embedsIn, Bool.and_eq_true] at leading
  rw [Embeds, visible_led leading.1, ← Set.empty_union asked]
  exact chained (fixed leading.2) inner

theorem closed (inner : s.Embeds stop spell p q asked)
    (closing : embedsOut stop post.toList q r = true) :
    (s ++ sql post).Embeds stop spell p r asked := by
  simp only [embedsOut, Bool.and_eq_true] at closing
  rw [Embeds, visible_closed closing.1, ← Set.union_empty asked]
  exact chained inner (fixed closing.2)

theorem linked (first : s.Embeds stop spell p q asked)
    (linking : embedsOut stop mid.toList q r = true) (ends : TypedSql.closed mid.toList = true)
    (second : t.Embeds stop spell r o others) :
    (s ++ sql mid ++ t).Embeds stop spell p o (asked ∪ others) := by
  simp only [embedsOut, Bool.and_eq_true] at linking
  rw [Embeds, visible_linked linking.1 ends, ← Set.empty_union others]
  exact chained first (chained (fixed linking.2) second)

theorem within (inner : s.Embeds stop' spell 0 0 asked) (k : Nat) :
    s.Embeds stop spell (k + 1) (k + 1) asked := by
  have settles : still stop (0 + (k + 1)) (s.visible spell) = some (0 + (k + 1)) :=
    still_inside inner.1 k
  rw [Nat.zero_add] at settles
  exact ⟨settles, inner.2⟩

theorem weaken (fewer : ∀ x, stop' x = true → stop x = true) (inner : s.Embeds stop spell p q asked) :
    s.Embeds stop' spell p q asked := ⟨still_mono fewer inner.1, inner.2⟩

theorem enclosed (opening : embedsIn stop pre.toList 0 1 = true)
    (inner : s.Embeds stop' spell 0 0 asked) (closing : embedsOut stop post.toList 1 0 = true) :
    (sql pre ++ s ++ sql post).Embeds stop spell 0 0 asked :=
  (led opening (inner.within 0)).closed closing

theorem paired (opening : embedsIn stop pre.toList 0 1 = true)
    (first : s.Embeds stop' spell 0 0 asked) (linking : embedsOut stop mid.toList 1 (k + 1) = true)
    (ends : TypedSql.closed mid.toList = true) (second : t.Embeds stop' spell 0 0 others)
    (closing : embedsOut stop post.toList (k + 1) 0 = true) :
    (sql pre ++ s ++ sql mid ++ t ++ sql post).Embeds stop spell 0 0 (asked ∪ others) :=
  ((led opening (first.within 0)).linked linking ends (second.within k)).closed closing

section Lists
variable {α : Type} {pairs : List (α × Sql)} {f : α → Set Query}

theorem join (linking : embedsOut stop mid.toList p p = true)
    (ends : TypedSql.closed mid.toList = true)
    (each : ∀ x ∈ pairs, x.2.Embeds stop spell p p (f x.1)) :
    (Sql.join mid (pairs.map Prod.snd)).Embeds stop spell p p (askedIn f (pairs.map Prod.fst)) := by
  induction pairs with
  | nil =>
    simp only [List.map_nil, askedIn_nil]
    exact nil
  | cons x rest ih =>
    obtain ⟨first, others⟩ := List.forall_mem_cons.mp each
    cases rest with
    | nil =>
      simp only [List.map_cons, List.map_nil, askedIn_cons, askedIn_nil, Set.union_empty]
      exact first
    | cons y rest =>
      have whole : askedIn f ((x :: y :: rest).map Prod.fst) =
          f x.1 ∪ askedIn f ((y :: rest).map Prod.fst) := askedIn_cons
      rw [whole]
      exact first.linked linking ends (ih others)

theorem flatten (each : ∀ x ∈ pairs, Apart (x.2.lexemes spell) ∧ x.2.Embeds stop spell p p (f x.1)) :
    Apart (Sql.lexemes spell (pairs.map Prod.snd).flatten) ∧
      Embeds stop spell p (pairs.map Prod.snd).flatten p (askedIn f (pairs.map Prod.fst)) := by
  induction pairs with
  | nil =>
    simp only [List.map_nil, askedIn_nil]
    exact ⟨trivial, nil⟩
  | cons x rest ih =>
    obtain ⟨⟨apart, first⟩, others⟩ := List.forall_mem_cons.mp each
    obtain ⟨apart', more⟩ := ih others
    simp only [List.map_cons, List.flatten_cons, askedIn_cons, lexemes_append apart']
    exact ⟨apart.append apart', first.append apart' more⟩

end Lists
end Sql.Embeds
end TypedSql
