import TypedSql.Proofs.Script.Reading

namespace TypedSql

namespace Reader
variable {α β γ : Type}

/-- That what is put behind a text does not change what is read from it, as long as a closing
    bracket is left to read. -/
structure Steady (reader : Reader α) : Prop where
  suffix : ∀ {text a rest}, reader text = some (a, rest) → rest <:+ text
  same : ∀ {text a rest}, reader text = some (a, rest) → ')' ∈ rest →
    ∀ more, reader (text ++ more) = some (a, rest ++ more)
  fails : ∀ {text}, reader text = none → ')' ∈ text → ∀ more, reader (text ++ more) = none

def Spares (reader : Reader α) : Prop :=
  ∀ {text a rest}, reader text = some (a, rest) → ')' ∈ text → ')' ∈ rest

def andThen (first : Reader α) (second : α → Reader β) : Reader β := fun text =>
  (first text).bind fun next => second next.1 next.2

def either (first second : Reader α) : Reader α := fun text => (first text).or (second text)

def ofTotal (total : List Char → α × List Char) : Reader α := fun text => some (total text)

def tagged (a : α) (skip : List Char → Option (List Char)) : Reader α := fun text =>
  (skip text).map fun rest => (a, rest)

section Rules
variable {first : Reader α} {second : α → Reader β} {p : Char → Bool} {c : Char} {a : α}

theorem andThen_eq_some {text rest : List Char} {b : β} :
    first.andThen second text = some (b, rest) ↔
      ∃ a middle, first text = some (a, middle) ∧ second a middle = some (b, rest) := by
  simp [andThen, Option.bind_eq_some_iff]

theorem tagged_eq_some {skip : List Char → Option (List Char)} {text rest : List Char} {b : α} :
    tagged a skip text = some (b, rest) ↔ skip text = some rest ∧ b = a := by
  simp only [tagged, Option.map_eq_some_iff, Prod.mk.injEq]
  constructor
  · rintro ⟨found, skipped, rfl, rfl⟩
    exact ⟨skipped, rfl⟩
  · rintro ⟨skipped, rfl⟩
    exact ⟨rest, skipped, rfl, rfl⟩

theorem Takes.of_suffix (takes : first.Takes)
    (suffix : ∀ {a text b rest}, second a text = some (b, rest) → rest <:+ text) :
    (first.andThen second).Takes := by
  intro text b rest read
  rcases andThen_eq_some.mp read with ⟨a, middle, read, read'⟩
  rcases takes read with ⟨taken, full, rfl⟩
  rcases suffix read' with ⟨taken', rfl⟩
  exact ⟨taken ++ taken', by simp [full], by rw [List.append_assoc]⟩

theorem Steady.run1 : (run1 p).Steady where
  suffix := by
    intro text taken rest read
    rcases run1_eq_some.mp read with ⟨-, rfl, -⟩
    exact List.dropWhile_suffix p
  same := by
    intro text taken rest read closing more
    exact run1_append_of_ne_nil read (List.ne_nil_of_mem closing) more
  fails := by
    intro text read closing more
    rw [run1_eq_none] at read ⊢
    rwa [List.head?_append_of_ne_nil _ (List.ne_nil_of_mem closing)]

theorem Spares.run1 (other : p ')' = false) : (run1 p).Spares := by
  intro text taken rest read closing
  rcases run1_eq_some.mp read with ⟨rfl, rfl, -⟩
  rw [← List.takeWhile_append_dropWhile (p := p) (l := text)] at closing
  rcases List.mem_append.mp closing with inside | behind
  · have met := List.mem_takeWhile_imp inside
    rw [other] at met
    cases met
  · exact behind

theorem Steady.exactly : (tagged a (exactly c)).Steady where
  suffix := by
    intro text b rest read
    rcases tagged_eq_some.mp read with ⟨taken, -⟩
    rw [exactly_eq_some.mp taken]
    exact List.suffix_cons c rest
  same := by
    intro text b rest read closing more
    rcases tagged_eq_some.mp read with ⟨taken, rfl⟩
    rw [exactly_eq_some.mp taken]
    exact tagged_eq_some.mpr ⟨exactly_eq_some.mpr rfl, rfl⟩
  fails := by
    intro text read closing more
    cases text with
    | nil => cases closing
    | cons d text => simpa [tagged, Reader.exactly] using read

theorem Spares.exactly (other : c ≠ ')') : (tagged a (exactly c)).Spares := by
  intro text b rest read closing
  rcases tagged_eq_some.mp read with ⟨taken, -⟩
  rw [exactly_eq_some.mp taken] at closing
  exact (List.mem_cons.mp closing).resolve_left (Ne.symm other)

theorem Steady.andThen (steady : first.Steady) (spares : first.Spares)
    (steady' : ∀ a, (second a).Steady) : (first.andThen second).Steady where
  suffix := by
    intro text b rest read
    rcases andThen_eq_some.mp read with ⟨a, middle, read, read'⟩
    exact ((steady' a).suffix read').trans (steady.suffix read)
  same := by
    intro text b rest read closing more
    rcases andThen_eq_some.mp read with ⟨a, middle, read, read'⟩
    have before : ')' ∈ middle := ((steady' a).suffix read').subset closing
    exact andThen_eq_some.mpr
      ⟨a, middle ++ more, steady.same read before more, (steady' a).same read' closing more⟩
  fails := by
    intro text read closing more
    unfold Reader.andThen at read ⊢
    cases begun : first text with
    | none => rw [steady.fails begun closing more, Option.bind_none]
    | some next =>
      have before : ')' ∈ next.2 := spares begun closing
      rw [begun, Option.bind_some] at read
      rw [steady.same begun before more, Option.bind_some]
      exact (steady' next.1).fails read before more

theorem Steady.either {other : Reader α} (steady : first.Steady) (steady' : other.Steady) :
    (either first other).Steady where
  suffix := by
    intro text a rest read
    rcases Option.or_eq_some_iff.mp read with read | ⟨-, read⟩
    · exact steady.suffix read
    · exact steady'.suffix read
  same := by
    intro text a rest read closing more
    rcases Option.or_eq_some_iff.mp read with read | ⟨none, read⟩
    · exact Option.or_eq_some_iff.mpr (.inl (steady.same read closing more))
    · have before : ')' ∈ text := (steady'.suffix read).subset closing
      exact Option.or_eq_some_iff.mpr
        (.inr ⟨steady.fails none before more, steady'.same read closing more⟩)
  fails := by
    intro text read closing more
    rcases Option.or_eq_none_iff.mp read with ⟨none, none'⟩
    exact Option.or_eq_none_iff.mpr ⟨steady.fails none closing more, steady'.fails none' closing more⟩

theorem Steady.total {total : List Char → α × List Char}
    (suffix : ∀ text, (total text).2 <:+ text)
    (same : ∀ text more, ')' ∈ (total text).2 →
      total (text ++ more) = ((total text).1, (total text).2 ++ more)) : (ofTotal total).Steady where
  suffix := by
    intro text a rest read
    have made : total text = (a, rest) := Option.some.inj read
    have after := suffix text
    rwa [made] at after
  same := by
    intro text a rest read closing more
    have made : total text = (a, rest) := Option.some.inj read
    have after := same text more
    rw [made] at after
    exact congrArg some (after closing)
  fails := by
    intro text read
    cases read

theorem Steady.andTotal {total : List Char → β × List Char} (f : α → β → γ)
    (steady : first.Steady) (steady' : (ofTotal total).Steady) :
    Steady fun text => (first text).map fun next => (f next.1 (total next.2).1, (total next.2).2)
      where
  suffix := by
    intro text a rest read
    rcases Option.map_eq_some_iff.mp read with ⟨next, begun, made⟩
    cases made
    have after : (total next.2).2 <:+ next.2 := steady'.suffix rfl
    exact after.trans (steady.suffix begun)
  same := by
    intro text a rest read closing more
    rcases Option.map_eq_some_iff.mp read with ⟨next, begun, made⟩
    cases made
    have after : (total next.2).2 <:+ next.2 := steady'.suffix rfl
    have before := steady.same begun (after.subset closing) more
    have same := Option.some.inj (steady'.same rfl closing more)
    simp only [before, Option.map_some, same]
  fails := by
    intro text read closing more
    have none := Option.map_eq_none_iff.mp read
    simp only [steady.fails none closing more, Option.map_none]

theorem Steady.many (steady : first.Steady) (takes : first.Takes) :
    (ofTotal (many first)).Steady := by
  refine .total (takes.many_suffix) fun text more closing => ?_
  induction text using takes.induction with
  | stop text none =>
    rw [many_of_none none] at closing ⊢
    rw [many_of_none (steady.fails none closing more)]
  | step text a rest read ih =>
    rw [takes.many_of_some read] at closing ⊢
    have inside : ')' ∈ rest := (takes.many_suffix rest).subset closing
    rw [takes.many_of_some (steady.same read inside more), ih closing]

theorem Steady.orNothing {reader : Reader (List Char)} (steady : reader.Steady) :
    (ofTotal (Script.orNothing reader)).Steady := by
  refine .total (fun text => ?_) fun text more closing => ?_
  · unfold Script.orNothing
    cases found : reader text with
    | none => exact List.suffix_refl text
    | some next => exact steady.suffix found
  · unfold Script.orNothing at closing ⊢
    cases found : reader text with
    | none =>
      rw [found] at closing
      rw [steady.fails found closing more]
      rfl
    | some next =>
      rw [found] at closing
      rw [steady.same found closing more]
      rfl

end Rules
end Reader

namespace Script
open Reader

section Readers
variable {α : Type} {a : α} {word : List Char}

theorem steady_keyword (other : ')' ∉ word) : (tagged a (keyword word)).Steady where
  suffix := by
    intro text b rest read
    rcases keyword_eq_some.mp (tagged_eq_some.mp read).1 with ⟨taken, rfl, -⟩
    exact List.suffix_append taken rest
  same := by
    intro text b rest read closing more
    rcases tagged_eq_some.mp read with ⟨skipped, rfl⟩
    exact tagged_eq_some.mpr ⟨keyword_append skipped more, rfl⟩
  fails := by
    intro text read closing more
    rw [tagged, Option.map_eq_none_iff, Option.eq_none_iff_forall_ne_some] at read ⊢
    intro rest skipped
    rcases keyword_eq_some.mp skipped with ⟨taken, split, lowered⟩
    rcases List.append_eq_append_iff.mp split with ⟨beyond, rfl, -⟩ | ⟨behind, rfl, -⟩
    · -- the text would end within the keyword
      have member : ')' ∈ word := by
        rw [← lowered]
        exact List.mem_map.mpr ⟨')', List.mem_append_left _ closing, by decide⟩
      exact other member
    · exact read behind (keyword_eq_some.mpr ⟨taken, rfl, lowered⟩)

theorem spares_keyword (other : ')' ∉ word) : (tagged a (keyword word)).Spares := by
  intro text b rest read closing
  rcases keyword_eq_some.mp (tagged_eq_some.mp read).1 with ⟨taken, rfl, lowered⟩
  rcases List.mem_append.mp closing with inside | behind
  · have member : ')' ∈ word := by
      rw [← lowered]
      exact List.mem_map.mpr ⟨')', inside, by decide⟩
    exact absurd member other
  · exact behind

theorem steady_gap : gap.Steady := .run1

theorem steady_word : Script.word.Steady := .run1

theorem tagged_keywordPair (first second : String) :
    tagged a (keywordPair first second) =
      (tagged () (keyword first.toList)).andThen fun _ =>
        gap.andThen fun _ => tagged a (keyword second.toList) := by
  funext text
  simp only [tagged, Reader.andThen, keywordPair]
  cases keyword first.toList text with
  | none => rfl
  | some rest =>
    cases found : gap rest <;> simp [found]

theorem steady_spelled {joined first second : String} {constraint : Constraint}
    (others : ')' ∉ joined.toList ∧ ')' ∉ first.toList ∧ ')' ∉ second.toList) :
    (spelled joined first second constraint).Steady := by
  have split : spelled joined first second constraint =
      either (tagged constraint (keyword joined.toList))
        (tagged constraint (keywordPair first second)) := by
    funext text
    simp only [spelled, either, tagged, Option.map_or]
  rw [split, tagged_keywordPair]
  have second : (gap.andThen fun _ => tagged constraint (keyword second.toList)).Steady :=
    steady_gap.andThen (Spares.run1 (by decide)) fun _ => steady_keyword others.2.2
  exact (steady_keyword others.1).either
    ((steady_keyword others.2.1).andThen (spares_keyword others.2.1) fun _ => second)

theorem steady_keyed {name : String} {argument : Reader (List Char)} {make : String → Constraint}
    (other : ')' ∉ name.toList) (steady : argument.Steady) : (keyed name argument make).Steady := by
  have split : keyed name argument make =
      (tagged () (keyword name.toList)).andThen fun _ => gap.andThen fun _ =>
        fun text => (argument text).map fun next =>
          (make (String.ofList next.1), (([], next.2) : List Char × List Char).2) := by
    funext text
    simp only [tagged, Reader.andThen, keyed]
    cases keyword name.toList text with
    | none => rfl
    | some rest =>
      cases found : gap rest with
      | none => simp [found]
      | some next => cases found' : argument next.2 <;> simp [found, found']
  have nothing : (ofTotal fun text : List Char => (([] : List Char), text)).Steady :=
    .total (fun text => List.suffix_refl text) fun _ _ _ => rfl
  have value := steady.andTotal (fun taken _ => make (String.ofList taken)) nothing
  rw [split]
  exact (steady_keyword other).andThen (spares_keyword other) fun _ =>
    steady_gap.andThen (Spares.run1 (by decide)) fun _ => value

theorem steady_bracketed {inner : Reader (List Char)} (steady : inner.Steady)
    (spares : inner.Spares) : (bracketed inner).Steady := by
  have split : bracketed inner =
      (tagged () (exactly '(')).andThen fun _ => inner.andThen fun taken =>
        tagged ('(' :: taken ++ [')']) (exactly ')') := by
    funext text
    simp only [tagged, Reader.andThen, bracketed]
    cases exactly '(' text with
    | none => rfl
    | some rest =>
      cases found : inner rest with
      | none => simp [found]
      | some next => cases found' : exactly ')' next.2 <;> simp [found, found']
  rw [split]
  exact Steady.exactly.andThen (Spares.exactly (by decide)) fun _ =>
    steady.andThen spares fun _ => .exactly

theorem steady_arrayMark : (ofTotal arrayMark).Steady := by
  refine .total (fun text => ?_) fun text more closing => ?_
  · unfold arrayMark
    split
    · exact ⟨['[', ']'], rfl⟩
    · exact List.suffix_refl _
  · by_cases marked : ∃ rest, text = '[' :: ']' :: rest
    · rcases marked with ⟨rest, rfl⟩
      rfl
    · have plain := fun rest same => marked ⟨rest, same⟩
      rw [arrayMark_of_ne plain] at closing ⊢
      refine arrayMark_of_ne fun rest same => ?_
      rcases text with - | ⟨c, - | ⟨d, text⟩⟩
      · cases closing
      · rw [List.cons_append, List.cons.injEq] at same
        simp [same.1] at closing
      · simp only [List.cons_append, List.cons.injEq] at same
        exact plain text (by rw [same.1, same.2.1])

theorem steady_columnType : columnType.Steady := by
  have arguments : (bracketed (run1 (· != ')'))).Steady :=
    steady_bracketed .run1 (Spares.run1 (by decide))
  have split : columnType = fun text =>
      ((fun text => (word text).map fun next =>
        (next.1 ++ (orNothing (bracketed (run1 (· != ')'))) next.2).1,
          (orNothing (bracketed (run1 (· != ')'))) next.2).2) : Reader (List Char)) text).map
        fun next => (next.1 ++ (arrayMark next.2).1, (arrayMark next.2).2) := by
    funext text
    simp only [columnType]
    cases word text <;> rfl
  rw [split]
  exact (steady_word.andTotal (· ++ ·) arguments.orNothing).andTotal (· ++ ·) steady_arrayMark

theorem steady_referenceTarget : referenceTarget.Steady := by
  have column : (bracketed Script.word).Steady := steady_bracketed .run1 (Spares.run1 (by decide))
  have split : referenceTarget = fun text => (word text).map fun next =>
      (next.1 ++ (orNothing (bracketed word) next.2).1,
        (orNothing (bracketed word) next.2).2) := by
    funext text
    simp only [referenceTarget]
    cases word text <;> rfl
  rw [split]
  exact steady_word.andTotal (· ++ ·) column.orNothing

theorem steady_constraint : constraint.Steady := by
  have unique : (tagged Constraint.unique (keyword "unique".toList)).Steady :=
    steady_keyword (by decide)
  exact (steady_spelled (by decide)).either <| (steady_spelled (by decide)).either <|
    unique.either <| (steady_keyed (by decide) steady_referenceTarget).either <|
      steady_keyed (by decide) .run1

theorem nextConstraint_eq : nextConstraint = gap.andThen fun _ => constraint := by
  funext text
  simp only [nextConstraint, Reader.andThen]
  cases gap text <;> rfl

theorem steady_nextConstraint : nextConstraint.Steady := by
  rw [nextConstraint_eq]
  exact steady_gap.andThen (Spares.run1 (by decide)) fun _ => steady_constraint

theorem nextConstraint_takes : nextConstraint.Takes := by
  rw [nextConstraint_eq]
  exact Takes.of_suffix run1_takes steady_constraint.suffix

end Readers
end Script
end TypedSql
