import TypedSql.Json.Parser
import TypedSql.Name.Gated
import TypedSql.NameMap

namespace TypedSql

/-- Why a document is refused: it is not JSON, it does not have the form that is asked for, or
    a name in it is not admitted. -/
inductive DecodeError where
  | notJson
  | wrongForm
  | name (error : NameError)
  deriving DecidableEq, Repr

open Json (Reading)

/-- A part of a document. A part is held if all of it was read before anything in it was
    looked at. -/
structure Source where
  reading : Reading
  isHeld : Bool := false

namespace Source

/-- The fault of a part that is not of the kind that is asked for: being no JSON goes first. -/
def mismatch (s : Source) : DecodeError :=
  match s.reading with
  | .halfPair | .unfit | .broken => .notJson
  | _ => .wrongForm

/-- The fault of a part that has the wrong shape from some point on, so that a reader of the
    text stops there. What is held has been read to its end. -/
def misshapen (s : Source) : DecodeError := if s.isHeld then .wrongForm else .notJson

def held (j : Json) : Source := ⟨.ofJson j.depth j, true⟩

end Source

abbrev Decoder (α : Type) := Source → Except DecodeError α

/-- A fault in an object, with the place of the member at which it shows. -/
structure Fault where
  place : Nat
  error : DecodeError

def Fault.earlier (a b : Fault) : Fault := if b.place < a.place then b else a

abbrev Entries := List (Reading × Source)

/-- What is read from the members of an object, with the names that are asked for. Of several
    faults the one that stands first in the object counts, in whatever order the members are
    asked for. The values may also stand in a list, in the order in which they are asked for. -/
structure Members (α : Type) where
  names : List String
  read : Entries → Except Fault α
  readList : List Source → Except DecodeError (α × List Source)

namespace Members
variable {α β : Type}

instance : Applicative Members where
  pure a := ⟨[], fun _ => .ok a, fun items => .ok (a, items)⟩
  seq f x := {
    names := f.names ++ (x ()).names
    read := fun entries =>
      match f.read entries, (x ()).read entries with
      | .ok f, .ok a => .ok (f a)
      | .error e, .ok _ => .error e
      | .ok _, .error e => .error e
      | .error e, .error e' => .error (Fault.earlier e e')
    readList := fun items => do
      let (f, items) ← f.readList items
      let (a, items) ← (x ()).readList items
      .ok (f a, items) }

def occurrences (key : String) (place : Nat) : Entries → List (Nat × Source)
  | [] => []
  | (name, value) :: rest =>
    if name.text? = some key then (place, value) :: occurrences key (place + 1) rest
    else occurrences key (place + 1) rest

/-- Reads the member of that name; `absent` tells what its absence means. A second member of
    the name is refused. -/
def lookup (key : String) (absent : Except DecodeError α) (decode : Decoder α) : Members α where
  names := [key]
  read entries :=
    match occurrences key 0 entries with
    | [] => absent.mapError fun e => ⟨entries.length, e⟩
    | (place, value) :: more =>
      match decode value, more with
      | .error e, _ => .error ⟨place, e⟩
      | .ok a, [] => .ok a
      | .ok _, (again, _) :: _ => .error ⟨again, .wrongForm⟩
  readList
    | [] => absent.map fun a => (a, [])
    | item :: rest => (decode item).map fun a => (a, rest)

def required (key : String) (decode : Decoder α) : Members α :=
  lookup key (.error .wrongForm) decode

def optional (key : String) (decode : Decoder α) : Members (Option α) :=
  lookup key (.ok none) fun
    | ⟨.null, _⟩ => .ok none
    | s => (decode s).map some

/-- A member that may be missing, but not null. -/
def defaulted (key : String) (default : α) (decode : Decoder α) : Members α :=
  lookup key (.ok default) decode

/-- The place of the first member, counted from `place`, whose name cannot be read, or that has
    no name of these and a value that is not let pass. -/
def stranger? (names : List String) (passes : Reading → Bool) (place : Nat) :
    Entries → Option Nat
  | [] => none
  | (key, value) :: rest =>
    match key.text? with
    | none => some place
    | some name =>
      if names.contains name || passes value.reading then
        stranger? names passes (place + 1) rest
      else some place

/-- Lets the members pass that are not asked for, if `passes` admits their values. -/
def passingOthers (passes : Reading → Bool) (members : Members α) : Members α :=
  members <* {
    names := []
    read := fun entries =>
      match stranger? members.names passes 0 entries with
      | none => .ok ()
      | some place => .error ⟨place, .notJson⟩
    readList := fun items => .ok ((), items) }

end Members

/-- One form that a choice can take: a bare tag, or a tag with content. -/
inductive Variant (α : Type) where
  | plain (tag : String) (value : α)
  | carrying (tag : String) (decode : Decoder α)

namespace Variant
variable {α : Type}

def tag : Variant α → String
  | .plain tag _ => tag
  | .carrying tag _ => tag

def alone : Variant α → Except DecodeError α
  | .plain _ value => .ok value
  | .carrying _ _ => .error .wrongForm

/-- What a tag with content stands for. The content of a bare tag is null, or an empty object
    where it is held. -/
def withContent : Variant α → Decoder α
  | .plain _ value, ⟨.null, _⟩ => .ok value
  | .plain _ value, ⟨.object [], true⟩ => .ok value
  | .plain _ _, s => .error s.mismatch
  | .carrying _ decode, s => decode s

end Variant

namespace Decoder
variable {α : Type}

def string : Decoder String
  | ⟨.text s, _⟩ => .ok s
  | s => .error s.mismatch

def bool : Decoder Bool
  | ⟨.bool b, _⟩ => .ok b
  | s => .error s.mismatch

def nat (bound : Nat) : Decoder Nat
  | ⟨.nat n, _⟩ => if n < bound then .ok n else .error .wrongForm
  | s => .error s.mismatch

def uint32 : Decoder UInt32 := fun s => (nat UInt32.size s).map UInt32.ofNat

def uint64 : Decoder UInt64 := fun s => (nat UInt64.size s).map UInt64.ofNat

def char : Decoder Char := fun s => do
  match (← string s).toList with
  | [c] => .ok c
  | _ => .error .wrongForm

def list (decode : Decoder α) : Decoder (List α)
  | ⟨.list items, isHeld⟩ => items.mapM fun item => decode ⟨item, isHeld⟩
  | s => .error s.mismatch

def option (decode : Decoder α) : Decoder (Option α)
  | ⟨.null, _⟩ => .ok none
  | s => (decode s).map some

def entry (decode : Decoder α) (isHeld : Bool) (member : Reading × Reading) :
    Except DecodeError (String × α) :=
  match member.1.text? with
  | none => .error .notJson
  | some name => (decode ⟨member.2, isHeld⟩).map fun a => (name, a)

/-- Entries by name. Of members with one name the last one stays. -/
def nameMap (decode : Decoder α) : Decoder (NameMap α)
  | ⟨.object members, isHeld⟩ => (members.mapM (entry decode isHeld)).map NameMap.ofList
  | s => .error s.mismatch

def gated (accept : String → Except NameError α) : Decoder α := fun s => do
  (accept (← string s)).mapError .name

/-- The members of an object. Of what else it holds `passes` is asked. -/
def members (passes : Reading → Bool) (members : Members α) (isHeld : Bool)
    (entries : List (Reading × Reading)) : Except DecodeError α :=
  ((members.passingOthers passes).read
    (entries.map fun e => (e.1, ⟨e.2, isHeld⟩))).mapError (·.error)

/-- An object, or a list of the values of its members. What else it holds needs to be JSON in
    form only. -/
def object (members : Members α) : Decoder α
  | ⟨.object entries, isHeld⟩ => Decoder.members Reading.isSound members isHeld entries
  | ⟨.list items, isHeld⟩ => do
    let (a, rest) ← members.readList (items.map fun item => ⟨item, isHeld⟩)
    if rest.isEmpty then .ok a else .error (Source.misshapen ⟨.list items, isHeld⟩)
  | s => .error s.mismatch

/-- A choice: a tag, or an object whose only member has the tag as its name. A further member
    shows after the content, unless all is held. -/
def choice (variants : List (Variant α)) : Decoder α
  | ⟨.text tag, _⟩ =>
    match variants.find? fun v => v.tag == tag with
    | some v => v.alone
    | none => .error .wrongForm
  | ⟨.object ((key, content) :: more), isHeld⟩ => do
    if isHeld && !more.isEmpty then .error .wrongForm
    let tag ← string ⟨key, isHeld⟩
    match variants.find? fun v => v.tag == tag with
    | none => .error .wrongForm
    | some v =>
      let a ← v.withContent ⟨content, isHeld⟩
      if more.isEmpty then .ok a else .error .notJson
  | s => .error s.misshapen

end Decoder

class Tagged (α : Type) where
  all : List α
  tag : α → String

namespace Tagged
variable {α : Type} [Tagged α]

def toJson (a : α) : Json := .str (tag a)

def decode : Decoder α := .choice (all.map fun a => .plain (tag a) a)

end Tagged

def documentDepth : Nat := 127

def Source.ofJson (j : Json) : Source := ⟨.ofJson documentDepth j, false⟩

def Decoder.fromText {α : Type} (decode : Decoder α) (text : String) : Except DecodeError α := do
  let document := Json.Text.read documentDepth text
  let a ← decode ⟨document.value, false⟩
  if document.isWhole then .ok a else .error .notJson

end TypedSql
