import Mathlib.Data.List.Basic
import TypedSql.Sql.ParamSet

namespace TypedSql

section Renaming
variable {α β : Type} [BEq α] [LawfulBEq α] [BEq β] [LawfulBEq β] {f : α → β}

theorem eraseDups_map :
    (xs : List α) → (∀ a ∈ xs, ∀ b ∈ xs, f a = f b → a = b) →
      (xs.map f).eraseDups = xs.eraseDups.map f
  | [], _ => rfl
  | a :: rest, apart => by
    have others : (rest.map f).filter (fun b => !b == f a) =
        (rest.filter fun b => !b == a).map f := by
      rw [List.filter_map]
      congr 1
      refine List.filter_congr fun b member => ?_
      by_cases equal : b = a
      · simp [equal]
      · have distinct : f b ≠ f a := fun same =>
          equal (apart b (List.mem_cons_of_mem _ member) a List.mem_cons_self same)
        simp [equal, distinct]
    -- an element takes its later repeats along, so what is left is shorter but no tail
    have rest_apart : ∀ b ∈ rest.filter fun b => !b == a, ∀ c ∈ rest.filter fun b => !b == a,
        f b = f c → b = c := fun b first c second =>
      apart b (List.mem_cons_of_mem _ (List.mem_of_mem_filter first)) c
        (List.mem_cons_of_mem _ (List.mem_of_mem_filter second))
    rw [List.map_cons, List.eraseDups_cons, others, List.eraseDups_cons, List.map_cons,
      eraseDups_map _ rest_apart]
termination_by xs => xs.length
decreasing_by
  have := List.length_filter_le (fun b => !b == a) rest
  simp only [List.length_cons]
  omega

theorem idxOf_map {xs : List α} {a : α} (apart : ∀ b ∈ xs, f b = f a → b = a) :
    (xs.map f).idxOf (f a) = xs.idxOf a := by
  induction xs with
  | nil => rfl
  | cons b rest ih =>
    have others := ih fun c member => apart c (List.mem_cons_of_mem _ member)
    by_cases same : b = a
    · simp [same]
    · have distinct : f b ≠ f a := fun equal => same (apart b List.mem_cons_self equal)
      simp [same, distinct, others]

end Renaming

namespace ParamSet

section Index
variable {s : ParamSet} {name : String} {place : Nat}

theorem names_of_index (known : s.index.get? name = some place) :
    0 < place ∧ s.names[place - 1]? = some name :=
  (s.indexed name place).mp known

theorem mem_names_iff : name ∈ s.names ↔ ∃ place, s.index.get? name = some place := by
  rw [List.mem_iff_getElem?]
  constructor
  · rintro ⟨i, found⟩
    exact ⟨i + 1, (s.indexed name (i + 1)).mpr ⟨Nat.succ_pos i, found⟩⟩
  · rintro ⟨place, known⟩
    exact ⟨place - 1, (names_of_index known).2⟩

theorem distinct (s : ParamSet) : s.names.Nodup := by
  refine List.pairwise_iff_getElem.mpr fun i j inside inside' before same => ?_
  have first : s.index.get? s.names[i] = some (i + 1) :=
    (s.indexed _ _).mpr ⟨Nat.succ_pos i, List.getElem?_eq_getElem inside⟩
  have second : s.index.get? s.names[j] = some (j + 1) :=
    (s.indexed _ _).mpr ⟨Nat.succ_pos j, List.getElem?_eq_getElem inside'⟩
  rw [same, second, Option.some.injEq] at first
  omega

theorem insert_of_known (known : s.index.get? name = some place) : s.insert name = (place, s) := by
  unfold insert
  split <;> simp_all

theorem insert_of_new (new : name ∉ s.names) :
    (s.insert name).1 = s.names.length + 1 ∧ (s.insert name).2.names = s.names ++ [name] := by
  unfold insert
  split
  · rename_i place known
    exact absurd (mem_names_iff.mpr ⟨place, known⟩) new
  · exact ⟨rfl, rfl⟩

theorem names_insert_place (s : ParamSet) (name : String) :
    0 < (s.insert name).1 ∧ (s.insert name).2.names[(s.insert name).1 - 1]? = some name := by
  by_cases known : name ∈ s.names
  · rcases mem_names_iff.mp known with ⟨place, found⟩
    rw [insert_of_known found]
    exact names_of_index found
  · rcases insert_of_new known with ⟨place, names⟩
    rw [place, names]
    simp

theorem position_eq (s : ParamSet) (name : String) :
    s.position name = s.names.idxOf name + 1 := by
  by_cases known : name ∈ s.names
  · rcases mem_names_iff.mp known with ⟨place, found⟩
    rcases names_of_index found with ⟨counted, stands⟩
    obtain ⟨inside, at_⟩ := List.getElem?_eq_some_iff.mp stands
    have same : s.names.idxOf name = place - 1 := by
      rw [← at_, s.distinct.idxOf_getElem]
    rw [position, insert_of_known found, same]
    show place = place - 1 + 1
    omega
  · rw [position, (insert_of_new known).1, List.idxOf_of_notMem known]

end Index

theorem names_insert (s : ParamSet) (name : String) :
    (s.insert name).2.names = if name ∈ s.names then s.names else s.names ++ [name] := by
  split
  · rename_i known
    rcases mem_names_iff.mp known with ⟨place, found⟩
    rw [insert_of_known found]
  · rename_i new
    exact (insert_of_new new).2

theorem names_insertAll (s : ParamSet) (names : List String) :
    (s.insertAll names).names = s.names ++ (names.removeAll s.names).eraseDups := by
  induction names generalizing s with
  | nil => simp [insertAll, List.removeAll]
  | cons name rest ih =>
    have step : s.insertAll (name :: rest) = (s.insert name).2.insertAll rest := rfl
    rw [step, ih, names_insert]
    by_cases known : name ∈ s.names
    · simp [known, List.removeAll]
    · have fresh : (name :: rest).removeAll s.names = name :: rest.removeAll s.names := by
        simp [known, List.removeAll]
      have later : rest.removeAll (s.names ++ [name]) =
          (rest.removeAll s.names).filter fun other => !other == name := by
        simp only [List.removeAll, List.filter_filter]
        refine List.filter_congr fun other _ => ?_
        by_cases same : other = name <;> simp [same]
      rw [if_neg known, fresh, later, List.eraseDups_cons, List.append_assoc,
        List.singleton_append]

theorem names_ofList (names : List String) : (ofList names).names = names.eraseDups := by
  have all : names.removeAll [] = names := by simp [List.removeAll]
  rw [ofList, names_insertAll, empty, all, List.nil_append]

theorem map_position (s : ParamSet) :
    s.names.map s.position = List.range' 1 s.names.length := by
  refine List.ext_getElem (by simp) fun i inside _ => ?_
  simp only [List.length_map] at inside
  simp [position_eq, s.distinct.idxOf_getElem, Nat.add_comm]

section Runs
variable {s : ParamSet} {name : String} {place : Nat}

theorem ofList_append (calls more : List String) :
    ofList (calls ++ more) = (ofList calls).insertAll more :=
  List.foldl_append ..

theorem ofList_concat (calls : List String) (name : String) :
    ofList (calls ++ [name]) = ((ofList calls).insert name).2 :=
  ofList_append calls [name]

/-- An insertion leaves every entry where it is. -/
theorem index_insert (known : s.index.get? name = some place) (other : String) :
    (s.insert other).2.index.get? name = some place := by
  rcases names_of_index known with ⟨counted, stands⟩
  refine ((s.insert other).2.indexed name place).mpr ⟨counted, ?_⟩
  rw [names_insert]
  split
  · exact stands
  · obtain ⟨inside, -⟩ := List.getElem?_eq_some_iff.mp stands
    rw [List.getElem?_append_left inside, stands]

theorem index_insertAll (known : s.index.get? name = some place) (more : List String) :
    (s.insertAll more).index.get? name = some place := by
  induction more generalizing s with
  | nil => exact known
  | cons other rest ih => exact ih (index_insert known other)

/-- The place that an insertion gives is the one that its name has ever after. -/
theorem position_insertAll (s : ParamSet) (name : String) (more : List String) :
    ((s.insert name).2.insertAll more).position name = (s.insert name).1 := by
  have known : (s.insert name).2.index.get? name = some (s.insert name).1 :=
    ((s.insert name).2.indexed _ _).mpr (names_insert_place s name)
  rw [position, insert_of_known (index_insertAll known more)]

theorem position_ofList {calls : List String} {i : Nat} {name : String}
    (called : calls[i]? = some name) :
    (ofList calls).position name = ((ofList (calls.take i)).insert name).1 := by
  obtain ⟨inside, rfl⟩ := List.getElem?_eq_some_iff.mp called
  have parted : ofList calls =
      ((ofList (calls.take i)).insert calls[i]).2.insertAll (calls.drop (i + 1)) := by
    rw [← ofList_concat, ← ofList_append]
    simp
  rw [parted, position_insertAll]

end Runs

/-- The list and the index stay in step over every run of insertions: the names are those given,
    in the order of their first insertion, the index has each of them at its place and nothing
    else, each insertion gives the place at which its name stands from then on, and no later
    insertion moves or renames an entry. -/
theorem index_in_step (calls : List String) :
    (ofList calls).names = calls.eraseDups ∧ (ofList calls).names.Nodup ∧
      (∀ name place, (ofList calls).index.get? name = some place ↔
        0 < place ∧ (ofList calls).names[place - 1]? = some name) ∧
      (∀ name, ((ofList calls).insert name).2 = ofList (calls ++ [name]) ∧
        0 < ((ofList calls).insert name).1 ∧
        (ofList (calls ++ [name])).names[((ofList calls).insert name).1 - 1]? = some name) ∧
      ∀ more, (ofList calls).names <+: (ofList (calls ++ more)).names ∧
        ∀ name place, (ofList calls).index.get? name = some place →
          (ofList (calls ++ more)).index.get? name = some place ∧
            (ofList (calls ++ more)).insert name = (place, ofList (calls ++ more)) := by
  refine ⟨names_ofList calls, distinct _, (ofList calls).indexed, fun name => ?_, fun more => ?_⟩
  · rw [ofList_concat]
    exact ⟨rfl, names_insert_place (ofList calls) name⟩
  · rw [ofList_append]
    refine ⟨⟨_, (names_insertAll (ofList calls) more).symm⟩, fun name place known => ?_⟩
    have kept := index_insertAll known more
    exact ⟨kept, insert_of_known kept⟩

end ParamSet
end TypedSql
