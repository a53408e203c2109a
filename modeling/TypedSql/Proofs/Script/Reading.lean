import Mathlib.Data.List.Basic
import Mathlib.Data.List.TakeWhile
import TypedSql.Schema.Script

namespace TypedSql

namespace Reader
variable {α β : Type} {reader : Reader α}

/-- That a reader takes at least one character whenever it succeeds. -/
def Takes (reader : Reader α) : Prop :=
  ∀ {text a rest}, reader text = some (a, rest) → ∃ taken, taken ≠ [] ∧ text = taken ++ rest

section Many
variable {text rest : List Char} {a : α}

theorem Takes.length_lt (takes : reader.Takes) (read : reader text = some (a, rest)) :
    rest.length < text.length := by
  rcases takes read with ⟨taken, full, rfl⟩
  have some : 0 < taken.length := List.length_pos_iff.mpr full
  rw [List.length_append]
  omega

theorem Takes.manyUpTo_eq (takes : reader.Takes) {n m : Nat} (below : text.length ≤ n)
    (below' : text.length ≤ m) : manyUpTo n reader text = manyUpTo m reader text := by
  induction n generalizing m text with
  | zero =>
    have empty : text = [] := List.length_eq_zero_iff.mp (by omega)
    cases read : reader text with
    | none => cases m <;> simp [manyUpTo, read]
    | some next =>
      have shorter := takes.length_lt read
      simp [empty] at shorter
  | succ n ih =>
    cases read : reader text with
    | none => cases m <;> simp [manyUpTo, read]
    | some next =>
      have shorter := takes.length_lt read
      cases m with
      | zero => omega
      | succ m =>
        have same : manyUpTo n reader next.2 = manyUpTo m reader next.2 :=
          ih (by omega) (by omega)
        simp only [manyUpTo, read, same]

theorem many_of_none (read : reader text = none) : many reader text = ([], text) := by
  unfold many
  cases text.length <;> simp [manyUpTo, read]

theorem Takes.many_of_some (takes : reader.Takes) (read : reader text = some (a, rest)) :
    many reader text = (a :: (many reader rest).1, (many reader rest).2) := by
  have shorter := takes.length_lt read
  unfold many
  cases length : text.length with
  | zero => omega
  | succ n =>
    rw [length] at shorter
    have same : manyUpTo n reader rest = manyUpTo rest.length reader rest :=
      takes.manyUpTo_eq (by omega) (Nat.le_refl _)
    simp only [manyUpTo, read, same]

theorem Takes.induction (takes : reader.Takes) {P : List Char → Prop}
    (stop : ∀ text, reader text = none → P text)
    (step : ∀ text a rest, reader text = some (a, rest) → P rest → P text) (text : List Char) :
    P text := by
  induction length : text.length using Nat.strongRecOn generalizing text with
  | ind n ih =>
    cases read : reader text with
    | none => exact stop text read
    | some next =>
      have shorter := takes.length_lt read
      exact step text next.1 next.2 read (ih _ (length ▸ shorter) next.2 rfl)

theorem Takes.many_suffix (takes : reader.Takes) (text : List Char) :
    (many reader text).2 <:+ text := by
  induction text using takes.induction with
  | stop text none =>
    have left : (many reader text).2 = text := congrArg Prod.snd (many_of_none none)
    exact left.symm ▸ List.suffix_refl text
  | step text a rest read ih =>
    rw [takes.many_of_some read]
    rcases takes read with ⟨taken, -, rfl⟩
    exact ih.trans (List.suffix_append taken rest)

end Many

section Runs
variable {p : Char → Bool} {text taken rest : List Char}

theorem run1_eq_some :
    run1 p text = some (taken, rest) ↔
      text.takeWhile p = taken ∧ text.dropWhile p = rest ∧ taken ≠ [] := by
  unfold run1
  by_cases empty : text.takeWhile p = []
  · simp only [empty, List.isEmpty_nil, ↓reduceIte, reduceCtorEq, false_iff]
    rintro ⟨rfl, -, full⟩
    exact full rfl
  · simp only [List.isEmpty_iff, empty, ↓reduceIte, Option.some.injEq, Prod.mk.injEq]
    constructor
    · rintro ⟨rfl, rfl⟩
      exact ⟨rfl, rfl, empty⟩
    · rintro ⟨rfl, rfl, -⟩
      exact ⟨rfl, rfl⟩

theorem run1_eq_none : run1 p text = none ↔ ∀ c ∈ text.head?, p c = false := by
  cases text with
  | nil => simp [run1]
  | cons c text => cases first : p c <;> simp [run1, first]

theorem run1_append (full : taken ≠ []) (each : ∀ c ∈ taken, p c = true)
    (ends : ∀ c ∈ rest.head?, p c = false) : run1 p (taken ++ rest) = some (taken, rest) := by
  have stops : rest.takeWhile p = [] ∧ rest.dropWhile p = rest := by
    cases rest with
    | nil => simp
    | cons c rest => simp [ends c rfl]
  rw [run1_eq_some, List.takeWhile_append_of_pos each, List.dropWhile_append_of_pos each, stops.1,
    stops.2, List.append_nil]
  exact ⟨rfl, rfl, full⟩

theorem run1_append_of_ne_nil (read : run1 p text = some (taken, rest)) (left : rest ≠ [])
    (more : List Char) : run1 p (text ++ more) = some (taken, rest ++ more) := by
  rcases run1_eq_some.mp read with ⟨rfl, rfl, full⟩
  have split : text ++ more = text.takeWhile p ++ (text.dropWhile p ++ more) := by
    rw [← List.append_assoc, List.takeWhile_append_dropWhile]
  rw [split]
  refine run1_append full (fun c member => List.mem_takeWhile_imp member) fun c head => ?_
  rw [List.head?_append_of_ne_nil _ left, List.head?_eq_some_head left] at head
  cases head
  simpa using List.head_dropWhile_not p left

theorem run1_takes : (run1 p).Takes := by
  intro text taken rest read
  rcases run1_eq_some.mp read with ⟨rfl, rfl, full⟩
  exact ⟨_, full, (List.takeWhile_append_dropWhile).symm⟩

theorem exactly_eq_some {c : Char} : exactly c text = some rest ↔ text = c :: rest := by
  cases text with
  | nil => simp [exactly]
  | cons d text =>
    by_cases same : d = c <;> simp [exactly, same]

end Runs
end Reader

namespace Script
variable {text rest : List Char}

theorem keyword_eq_some {word : List Char} :
    keyword word text = some rest ↔
      ∃ taken, text = taken ++ rest ∧ taken.map Char.toLower = word := by
  induction word generalizing text with
  | nil => simp [keyword]
  | cons k word ih =>
    cases text with
    | nil => simp [keyword]
    | cons c text =>
      have first : (∃ taken, c :: text = taken ++ rest ∧ taken.map Char.toLower = k :: word) ↔
          c.toLower = k ∧ ∃ taken, text = taken ++ rest ∧ taken.map Char.toLower = word := by
        constructor
        · rintro ⟨taken, split, lowered⟩
          cases taken with
          | nil => simp at lowered
          | cons d taken =>
            rw [List.cons_append, List.cons.injEq] at split
            rw [List.map_cons, List.cons.injEq] at lowered
            exact ⟨split.1 ▸ lowered.1, taken, split.2, lowered.2⟩
        · rintro ⟨same, taken, rfl, rfl⟩
          exact ⟨c :: taken, rfl, by rw [List.map_cons, same]⟩
      rw [first, ← ih]
      by_cases same : c.toLower = k <;> simp [keyword, same]

theorem keyword_append {word : List Char} (read : keyword word text = some rest)
    (more : List Char) : keyword word (text ++ more) = some (rest ++ more) := by
  rcases keyword_eq_some.mp read with ⟨taken, rfl, lowered⟩
  exact keyword_eq_some.mpr ⟨taken, List.append_assoc taken rest more, lowered⟩

theorem arrayMark_of_ne (other : ∀ rest, text ≠ '[' :: ']' :: rest) :
    arrayMark text = ([], text) := by
  unfold arrayMark
  split
  · exact absurd rfl (other _)
  · rfl

end Script
end TypedSql
