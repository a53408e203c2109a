namespace TypedSql

/-- A JSON text as it stands: objects keep the order of their members and repeated keys.
    Of the numbers only the plain naturals are read; any other keeps its spelling. -/
inductive Json where
  | null
  | bool (b : Bool)
  | nat (n : Nat)
  | number (spelling : String)
  | str (s : String)
  | arr (items : List Json)
  | obj (members : List (String × Json))
  deriving Inhabited

namespace Json

mutual
def depth : Json → Nat
  | .arr items => 1 + depthOfItems items
  | .obj members => 1 + depthOfMembers members
  | _ => 0

def depthOfItems : List Json → Nat
  | [] => 0
  | item :: rest => max item.depth (depthOfItems rest)

def depthOfMembers : List (String × Json) → Nat
  | [] => 0
  | (_, value) :: rest => max value.depth (depthOfMembers rest)
end

def get? (name : String) : Json → Option Json
  | .obj members => members.lookup name
  | _ => none

def field (j : Json) (name : String) : Json := (j.get? name).getD .null

def ofOption {α : Type} (f : α → Json) : Option α → Json
  | some a => f a
  | none => .null

def ofStrings (names : List String) : Json := .arr (names.map .str)

end Json

end TypedSql
