import TypedSql.Json.Basic

namespace TypedSql.Json

/-- What a text turns out to hold when it is read as JSON. Faults stay where they were found:
    `halfPair` is a text with half of a surrogate pair; `unfit` is a number that no float holds,
    or a container that is nested too deep; at `broken` the text stops being JSON. Only the last
    one is a fault in what is passed over. Of a member that breaks off before its value, the
    name can be any reading. -/
inductive Reading where
  | null
  | bool (b : Bool)
  | nat (n : Nat)
  | number (spelling : String)
  | text (s : String)
  | list (items : List Reading)
  | object (members : List (Reading × Reading))
  | halfPair
  | unfit
  | broken
  deriving Inhabited

namespace Reading

def text? : Reading → Option String
  | .text s => some s
  | _ => none

def isQuoted : Reading → Bool
  | .text _ | .halfPair => true
  | _ => false

mutual
def isSound : Reading → Bool
  | .list items => soundItems items
  | .object members => soundMembers members
  | .broken => false
  | _ => true

def soundItems : List Reading → Bool
  | [] => true
  | item :: rest => item.isSound && soundItems rest

def soundMembers : List (Reading × Reading) → Bool
  | [] => true
  | (key, value) :: rest => key.isQuoted && value.isSound && soundMembers rest
end

mutual
def toJson? : Reading → Option Json
  | .null => some .null
  | .bool b => some (.bool b)
  | .nat n => some (.nat n)
  | .number spelling => some (.number spelling)
  | .text s => some (.str s)
  | .list items => (jsonItems? items).map .arr
  | .object members => (jsonMembers? members).map .obj
  | .halfPair | .unfit | .broken => none

def jsonItems? : List Reading → Option (List Json)
  | [] => some []
  | item :: rest => do
    let item ← item.toJson?
    let rest ← jsonItems? rest
    some (item :: rest)

def jsonMembers? : List (Reading × Reading) → Option (List (String × Json))
  | [] => some []
  | (key, value) :: rest => do
    let key ← key.text?
    let value ← value.toJson?
    let rest ← jsonMembers? rest
    some ((key, value) :: rest)
end

def isClean (r : Reading) : Bool := r.toJson?.isSome

mutual
def depth : Reading → Nat
  | .list items => 1 + depthOfItems items
  | .object members => 1 + depthOfMembers members
  | _ => 0

def depthOfItems : List Reading → Nat
  | [] => 0
  | item :: rest => max item.depth (depthOfItems rest)

def depthOfMembers : List (Reading × Reading) → Nat
  | [] => 0
  | (_, value) :: rest => max value.depth (depthOfMembers rest)
end

mutual
/-- What is read where a value is written down. Containers that are nested deeper than `limit`
    are unfit. -/
def ofJson (limit : Nat) : Json → Reading
  | .null => .null
  | .bool b => .bool b
  | .nat n => .nat n
  | .number spelling => .number spelling
  | .str s => .text s
  | .arr items =>
    match limit with
    | 0 => .unfit
    | limit + 1 => .list (ofItems limit items)
  | .obj members =>
    match limit with
    | 0 => .unfit
    | limit + 1 => .object (ofMembers limit members)
termination_by structural j => j

def ofItems (limit : Nat) : List Json → List Reading
  | [] => []
  | item :: rest => ofJson limit item :: ofItems limit rest
termination_by structural items => items

def ofMembers (limit : Nat) : List (String × Json) → List (Reading × Reading)
  | [] => []
  | (key, value) :: rest => (.text key, ofJson limit value) :: ofMembers limit rest
termination_by structural members => members
end

end Reading

end TypedSql.Json
