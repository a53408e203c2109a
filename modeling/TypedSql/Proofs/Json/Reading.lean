import TypedSql.Json.Reading

namespace TypedSql.Json

mutual

def reading : Json → Reading
  | .null => .null
  | .bool b => .bool b
  | .nat n => .nat n
  | .number spelling => .number spelling
  | .str s => .text s
  | .arr items => .list (readingItems items)
  | .obj members => .object (readingMembers members)
termination_by structural j => j

def readingItems : List Json → List Reading
  | [] => []
  | item :: rest => item.reading :: readingItems rest
termination_by structural items => items

def readingMembers : List (String × Json) → List (Reading × Reading)
  | [] => []
  | (key, value) :: rest => (.text key, value.reading) :: readingMembers rest
termination_by structural members => members

end

theorem readingItems_eq (items : List Json) : readingItems items = items.map reading := by
  induction items with
  | nil => rfl
  | cons item rest ih => rw [readingItems, ih, List.map_cons]

theorem readingMembers_eq (members : List (String × Json)) :
    readingMembers members = members.map fun e => (.text e.1, e.2.reading) := by
  induction members with
  | nil => rfl
  | cons member rest ih => rw [readingMembers, ih, List.map_cons]

theorem ofItems_eq (limit : Nat) (items : List Json) :
    Reading.ofItems limit items = items.map (Reading.ofJson limit) := by
  induction items with
  | nil => rfl
  | cons item rest ih => rw [Reading.ofItems, ih, List.map_cons]

theorem ofMembers_eq (limit : Nat) (members : List (String × Json)) :
    Reading.ofMembers limit members =
      members.map fun e => (.text e.1, Reading.ofJson limit e.2) := by
  induction members with
  | nil => rfl
  | cons member rest ih => rw [Reading.ofMembers, ih, List.map_cons]

theorem depth_le_of_mem_items {items : List Json} {j : Json} (member : j ∈ items) :
    j.depth ≤ depthOfItems items := by
  induction items with
  | nil => cases member
  | cons item rest ih =>
    rw [depthOfItems]
    rcases List.mem_cons.mp member with rfl | member
    · exact Nat.le_max_left _ _
    · exact Nat.le_trans (ih member) (Nat.le_max_right _ _)

theorem depth_le_of_mem_members {members : List (String × Json)} {e : String × Json}
    (member : e ∈ members) : e.2.depth ≤ depthOfMembers members := by
  induction members with
  | nil => cases member
  | cons first rest ih =>
    rw [depthOfMembers]
    rcases List.mem_cons.mp member with rfl | member
    · exact Nat.le_max_left _ _
    · exact Nat.le_trans (ih member) (Nat.le_max_right _ _)

theorem depth_lt_of_arr {n : Nat} {items : List Json} (shallow : (arr items).depth < n + 1) :
    ∀ j ∈ items, j.depth < n := by
  intro j member
  have bound := depth_le_of_mem_items member
  rw [depth] at shallow
  omega

theorem depth_lt_of_obj {n : Nat} {members : List (String × Json)}
    (shallow : (obj members).depth < n + 1) : ∀ e ∈ members, e.2.depth < n := by
  intro e member
  have bound := depth_le_of_mem_members member
  rw [depth] at shallow
  omega

mutual

theorem ofJson_of_depth_le {limit : Nat} (j : Json) (shallow : j.depth ≤ limit) :
    Reading.ofJson limit j = j.reading := by
  cases j with
  | arr items =>
    rw [depth] at shallow
    obtain ⟨limit, rfl⟩ : ∃ l, limit = l + 1 := ⟨limit - 1, by omega⟩
    rw [Reading.ofJson, reading, ofItems_of_depth_le items (by omega)]
  | obj members =>
    rw [depth] at shallow
    obtain ⟨limit, rfl⟩ : ∃ l, limit = l + 1 := ⟨limit - 1, by omega⟩
    rw [Reading.ofJson, reading, ofMembers_of_depth_le members (by omega)]
  | _ => rfl
termination_by structural j

theorem ofItems_of_depth_le {limit : Nat} (items : List Json)
    (shallow : depthOfItems items ≤ limit) : Reading.ofItems limit items = readingItems items := by
  cases items with
  | nil => rfl
  | cons item rest =>
    rw [depthOfItems] at shallow
    rw [Reading.ofItems, readingItems, ofJson_of_depth_le item (by omega),
      ofItems_of_depth_le rest (by omega)]
termination_by structural items

theorem ofMembers_of_depth_le {limit : Nat} (members : List (String × Json))
    (shallow : depthOfMembers members ≤ limit) :
    Reading.ofMembers limit members = readingMembers members := by
  cases members with
  | nil => rfl
  | cons member rest =>
    obtain ⟨key, value⟩ := member
    rw [depthOfMembers] at shallow
    rw [Reading.ofMembers, readingMembers, ofJson_of_depth_le value (by omega),
      ofMembers_of_depth_le rest (by omega)]
termination_by structural members

end

mutual

theorem depth_reading (j : Json) : j.reading.depth = j.depth := by
  cases j with
  | arr items => rw [reading, Reading.depth, depth, depth_readingItems items]
  | obj members => rw [reading, Reading.depth, depth, depth_readingMembers members]
  | _ => rfl
termination_by structural j

theorem depth_readingItems (items : List Json) :
    Reading.depthOfItems (readingItems items) = depthOfItems items := by
  cases items with
  | nil => rfl
  | cons item rest =>
    rw [readingItems, Reading.depthOfItems, depthOfItems, depth_reading item,
      depth_readingItems rest]
termination_by structural items

theorem depth_readingMembers (members : List (String × Json)) :
    Reading.depthOfMembers (readingMembers members) = depthOfMembers members := by
  cases members with
  | nil => rfl
  | cons member rest =>
    obtain ⟨key, value⟩ := member
    rw [readingMembers, Reading.depthOfMembers, depthOfMembers, depth_reading value,
      depth_readingMembers rest]
termination_by structural members

end

mutual

theorem toJson?_reading (j : Json) : j.reading.toJson? = some j := by
  cases j with
  | arr items => rw [reading, Reading.toJson?, jsonItems?_readingItems items, Option.map_some]
  | obj members => rw [reading, Reading.toJson?, jsonMembers?_readingMembers members, Option.map_some]
  | _ => rfl
termination_by structural j

theorem jsonItems?_readingItems (items : List Json) :
    Reading.jsonItems? (readingItems items) = some items := by
  cases items with
  | nil => rfl
  | cons item rest =>
    simp [readingItems, Reading.jsonItems?, toJson?_reading item, jsonItems?_readingItems rest]
termination_by structural items

theorem jsonMembers?_readingMembers (members : List (String × Json)) :
    Reading.jsonMembers? (readingMembers members) = some members := by
  cases members with
  | nil => rfl
  | cons member rest =>
    obtain ⟨key, value⟩ := member
    simp [readingMembers, Reading.jsonMembers?, Reading.text?, toJson?_reading value,
      jsonMembers?_readingMembers rest]
termination_by structural members

end

theorem isClean_reading (j : Json) : j.reading.isClean = true := by
  rw [Reading.isClean, toJson?_reading, Option.isSome_some]

mutual

theorem isSound_ofJson (limit : Nat) (j : Json) : (Reading.ofJson limit j).isSound = true := by
  cases j with
  | arr items =>
    cases limit with
    | zero => rfl
    | succ limit => rw [Reading.ofJson, Reading.isSound, soundItems_ofItems limit items]
  | obj members =>
    cases limit with
    | zero => rfl
    | succ limit => rw [Reading.ofJson, Reading.isSound, soundMembers_ofMembers limit members]
  | _ => rfl
termination_by structural j

theorem soundItems_ofItems (limit : Nat) (items : List Json) :
    Reading.soundItems (Reading.ofItems limit items) = true := by
  cases items with
  | nil => rfl
  | cons item rest =>
    rw [Reading.ofItems, Reading.soundItems, isSound_ofJson limit item,
      soundItems_ofItems limit rest, Bool.and_self]
termination_by structural items

theorem soundMembers_ofMembers (limit : Nat) (members : List (String × Json)) :
    Reading.soundMembers (Reading.ofMembers limit members) = true := by
  cases members with
  | nil => rfl
  | cons member rest =>
    obtain ⟨key, value⟩ := member
    rw [Reading.ofMembers, Reading.soundMembers, isSound_ofJson limit value,
      soundMembers_ofMembers limit rest, Reading.isQuoted, Bool.and_self, Bool.and_self]
termination_by structural members

end

theorem isSound_reading (j : Json) : j.reading.isSound = true := by
  rw [← ofJson_of_depth_le j (Nat.le_refl _), isSound_ofJson]

end TypedSql.Json
