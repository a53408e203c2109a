namespace TypedSql

/-- Entries by name, in strictly ascending order of the names. -/
structure NameMap (α : Type) where
  entries : List (String × α)
  ascending : entries.Pairwise fun a b => a.1 < b.1

namespace NameMap
variable {α : Type}

/-- Puts an entry in its place; one of the same name is replaced. -/
def insertEntry (name : String) (value : α) : List (String × α) → List (String × α)
  | [] => [(name, value)]
  | entry :: rest =>
    if name < entry.1 then (name, value) :: entry :: rest
    else if name = entry.1 then (name, value) :: rest
    else entry :: insertEntry name value rest

theorem mem_insertEntry {name : String} {value : α} {entries : List (String × α)}
    {e : String × α} (h : e ∈ insertEntry name value entries) :
    e = (name, value) ∨ e ∈ entries := by
  induction entries with
  | nil => simpa [insertEntry] using h
  | cons entry rest ih =>
    simp only [insertEntry] at h
    split at h
    · simpa using h
    · split at h
      · rcases List.mem_cons.mp h with h | h
        · exact .inl h
        · exact .inr (List.mem_cons_of_mem _ h)
      · rcases List.mem_cons.mp h with h | h
        · exact .inr (h ▸ List.mem_cons_self)
        · exact (ih h).imp id (List.mem_cons_of_mem _)

theorem lt_of_not_lt_of_ne {a b : String} (h : ¬ a < b) (hne : a ≠ b) : b < a :=
  Std.lt_of_le_of_ne (String.not_lt.mp h) (Ne.symm hne)

theorem ascending_insertEntry (name : String) (value : α) {entries : List (String × α)}
    (h : entries.Pairwise fun a b => a.1 < b.1) :
    (insertEntry name value entries).Pairwise fun a b => a.1 < b.1 := by
  induction entries with
  | nil => simp [insertEntry]
  | cons entry rest ih =>
    rw [List.pairwise_cons] at h
    simp only [insertEntry]
    split
    · rename_i before
      refine List.pairwise_cons.mpr ⟨?_, List.pairwise_cons.mpr h⟩
      intro e member
      rcases List.mem_cons.mp member with rfl | member
      · exact before
      · exact String.lt_trans before (h.1 _ member)
    · split
      · rename_i same
        refine List.pairwise_cons.mpr ⟨fun e member => ?_, h.2⟩
        exact same ▸ h.1 _ member
      · rename_i notBefore different
        refine List.pairwise_cons.mpr ⟨fun e member => ?_, ih h.2⟩
        rcases mem_insertEntry member with rfl | member
        · exact lt_of_not_lt_of_ne notBefore different
        · exact h.1 _ member

def empty : NameMap α := ⟨[], .nil⟩

def insert (m : NameMap α) (name : String) (value : α) : NameMap α :=
  ⟨insertEntry name value m.entries, ascending_insertEntry name value m.ascending⟩

def get? (m : NameMap α) (name : String) : Option α :=
  (m.entries.find? fun e => e.1 == name).map (·.2)

def contains (m : NameMap α) (name : String) : Bool := m.entries.any fun e => e.1 == name

def names (m : NameMap α) : List String := m.entries.map (·.1)

def values (m : NameMap α) : List α := m.entries.map (·.2)

def size (m : NameMap α) : Nat := m.entries.length

def isEmpty (m : NameMap α) : Bool := m.entries.isEmpty

/-- An insertion changes what one name has, and no other. -/
theorem get?_insert (m : NameMap α) (name : String) (value : α) (n : String) :
    (m.insert name value).get? n = if n = name then some value else m.get? n := by
  simp only [get?, insert]
  by_cases asked : n = name
  · subst asked
    rw [if_pos rfl]
    induction m.entries with
    | nil => simp [insertEntry]
    | cons entry rest ih =>
      simp only [insertEntry]
      split
      · simp
      · split
        · simp
        · rename_i other
          simpa [Ne.symm other] using ih
  · have apart : name ≠ n := fun same => asked same.symm
    rw [if_neg asked]
    induction m.entries with
    | nil => simp [insertEntry, apart]
    | cons entry rest ih =>
      simp only [insertEntry]
      split
      · simp [apart]
      · split
        · rename_i replaced
          simp [← replaced, apart]
        · simp only [List.find?_cons]
          split
          · rfl
          · exact ih

/-- Of entries with one name the last one stays. -/
def ofList (entries : List (String × α)) : NameMap α :=
  entries.foldl (fun m e => m.insert e.1 e.2) empty

end NameMap

abbrev NameSet := NameMap Unit

namespace NameSet

def add (s : NameSet) (name : String) : NameSet := s.insert name ()

def addAll (s : NameSet) (names : List String) : NameSet := names.foldl add s

def ofNames (names : List String) : NameSet := addAll NameMap.empty names

end NameSet

end TypedSql
