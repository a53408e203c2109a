import TypedSql.Json.Basic

namespace TypedSql.Toml

/-- How a table came to be. An implicit one was only named on the way to another; a dotted one
    was made by a key with dots. -/
structure Origin where
  isImplicit : Bool
  isDotted : Bool

/-- A value of a document under construction. Of the tables in an array the last one stands
    first. -/
inductive Node where
  | value (value : Json)
  | table (origin : Origin) (entries : List (String × Node))
  | tables (items : List (List (String × Node)))

abbrev Entries := List (String × Node)

namespace Entries

def update (key : String) (f : Option Node → Option Node) : Entries → Option Entries
  | [] => (f none).map fun node => [(key, node)]
  | (name, node) :: rest =>
    if name = key then (f (some node)).map fun node => (name, node) :: rest
    else (update key f rest).map ((name, node) :: ·)

def erase (key : String) (entries : Entries) : Entries := entries.filter fun e => e.1 != key

/-- Changes the table that a path leads to. Tables on the way that do not exist are made, and
    of an array its last table is meant. A dotted key may not enter a table that was defined by
    itself. -/
def descend (isDotted : Bool) (change : Origin → Entries → Option Entries) :
    List String → Origin → Entries → Option Entries
  | [], origin, entries => change origin entries
  | key :: path, _, entries =>
    entries.update key fun node =>
      match node with
      | none =>
        (descend isDotted change path ⟨true, isDotted⟩ []).map (.table ⟨true, isDotted⟩)
      | some (.value _) => none
      | some (.tables []) => none
      | some (.tables (last :: earlier)) =>
        (descend isDotted change path ⟨false, false⟩ last).map fun last =>
          .tables (last :: earlier)
      | some (.table origin inner) =>
        if isDotted && !origin.isImplicit then none
        else (descend isDotted change path origin inner).map (.table origin)

def find? (key : String) : List String → Entries → Option Node
  | [], entries => entries.lookup key
  | step :: path, entries =>
    match entries.lookup step with
    | some (.table _ inner) => find? key path inner
    | some (.tables (last :: _)) => find? key path last
    | _ => none

/-- Adds a value under a key, whose dots have been taken apart. No key is given twice, and no
    table is made both by dots and in another way. -/
def insertValue (path : List String) (key : String) (value : Json) (entries : Entries) :
    Option Entries :=
  descend true (fun origin inner =>
    if origin.isDotted == path.isEmpty then none
    else if (inner.lookup key).isSome then none
    else some (inner ++ [(key, .value value)])) path ⟨false, false⟩ entries

end Entries

mutual
def Node.toJson : Node → Json
  | .value value => value
  | .table _ entries => .obj (membersOfEntries entries)
  | .tables items => .arr (itemsOfTables items [])
termination_by structural node => node

def membersOfEntries : List (String × Node) → List (String × Json)
  | [] => []
  | (key, node) :: rest => (key, node.toJson) :: membersOfEntries rest
termination_by structural entries => entries

/-- The tables in the order they came in, before those in `later`. -/
def itemsOfTables : List (List (String × Node)) → List Json → List Json
  | [], later => later
  | entries :: rest, later => itemsOfTables rest (.obj (membersOfEntries entries) :: later)
termination_by structural items => items
end

structure Builder where
  root : Entries
  current : Entries
  path : List String
  inArray : Bool

namespace Builder

def start : Builder := ⟨[], [], [], false⟩

def close (b : Builder) : Option Entries :=
  match b.path.reverse with
  | [] => some b.current
  | key :: parents =>
    Entries.descend false (fun _ entries =>
      entries.update key fun node =>
        match node, b.inArray with
        | none, false => some (.table ⟨false, false⟩ b.current)
        | none, true => some (.tables [b.current])
        | some (.tables items), true => some (.tables (b.current :: items))
        | _, _ => none) parents.reverse ⟨false, false⟩ b.root

/-- Begins a table. One that was only named on the way to another is gone on with; any other
    that is there already is refused. -/
def openTable (b : Builder) (parents : List String) (key : String) : Option Builder := do
  let root ← b.close
  let present := match Entries.find? key parents root with
    | some (.table _ entries) => entries
    | _ => []
  let root ← Entries.descend false (fun _ entries =>
    match entries.lookup key with
    | none => some entries
    | some (.table origin _) =>
      if origin.isImplicit && !origin.isDotted then some (Entries.erase key entries) else none
    | some _ => none) parents ⟨false, false⟩ root
  some ⟨root, present, parents ++ [key], false⟩

/-- Begins a further table of an array. -/
def openItem (b : Builder) (parents : List String) (key : String) : Option Builder := do
  let root ← b.close
  let root ← Entries.descend false (fun _ entries =>
    match entries.lookup key with
    | none => some (entries ++ [(key, .tables [])])
    | some (.tables _) => some entries
    | some _ => none) parents ⟨false, false⟩ root
  some ⟨root, [], parents ++ [key], true⟩

def insert (b : Builder) (path : List String) (key : String) (value : Json) :
    Option Builder := do
  let current ← Entries.insertValue path key value b.current
  some { b with current }

def finish (b : Builder) : Option Json := b.close.map fun root => .obj (membersOfEntries root)

end Builder

end TypedSql.Toml
