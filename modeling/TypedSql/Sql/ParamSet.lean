import TypedSql.NameMap

namespace TypedSql

/-- The names of parameters in the order of their first use, with an index that has the place of
    each name, counted from one. -/
structure ParamSet where
  names : List String
  index : NameMap Nat
  indexed : ∀ name place,
    index.get? name = some place ↔ 0 < place ∧ names[place - 1]? = some name

namespace ParamSet

def empty : ParamSet where
  names := []
  index := .empty
  indexed := by simp [NameMap.get?, NameMap.empty]

theorem indexed_append (s : ParamSet) {name : String} (new : s.index.get? name = none)
    (n : String) (place : Nat) :
    (s.index.insert name (s.names.length + 1)).get? n = some place ↔
      0 < place ∧ (s.names ++ [name])[place - 1]? = some n := by
  have absent (i : Nat) : s.names[i]? ≠ some name := fun found => by
    have known := (s.indexed name (i + 1)).mpr ⟨Nat.succ_pos i, found⟩
    rw [new] at known
    cases known
  have last : (s.names ++ [name])[place - 1]? = some n ↔
      s.names[place - 1]? = some n ∨ place - 1 = s.names.length ∧ name = n := by
    rw [List.getElem?_append, List.getElem?_singleton]
    split <;> rename_i inside
    · simp [Nat.ne_of_lt inside]
    · have beyond : s.names[place - 1]? = none := List.getElem?_eq_none (by omega)
      rw [beyond]
      split <;> simp <;> omega
  rw [NameMap.get?_insert, last]
  by_cases same : n = name
  · subst same
    rw [if_pos rfl, Option.some.injEq]
    simp only [absent, false_or, and_true]
    omega
  · have apart : name ≠ n := Ne.symm same
    rw [if_neg same, s.indexed]
    simp [apart]

/-- Records a name on first sight, and gives its place either way. -/
def insert (s : ParamSet) (name : String) : Nat × ParamSet :=
  match new : s.index.get? name with
  | some place => (place, s)
  | none =>
    let place := s.names.length + 1
    (place, ⟨s.names ++ [name], s.index.insert name place, s.indexed_append new⟩)

/-- The place of a name: the one it has, or else the one it would be recorded at. -/
def position (s : ParamSet) (name : String) : Nat := (s.insert name).1

def insertAll (s : ParamSet) (names : List String) : ParamSet :=
  names.foldl (fun s name => (s.insert name).2) s

def ofList (names : List String) : ParamSet := empty.insertAll names

def size (s : ParamSet) : Nat := s.names.length

def isEmpty (s : ParamSet) : Bool := s.names.isEmpty

end ParamSet

end TypedSql
