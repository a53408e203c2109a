import TypedSql.Json.Token

namespace TypedSql.Json

/-- An array or object that is still open, with what it holds so far in reverse. -/
inductive Open where
  | array (items : List Reading)
  | object (members : List (Reading × Reading))
  | member (members : List (Reading × Reading)) (key : Reading)

def Open.endingWith (value : Reading) : Open → Reading
  | .array items => .list (value :: items).reverse
  | .object members => .object ((.broken, value) :: members).reverse
  | .member members key => .object ((key, value) :: members).reverse

/-- Which tokens may come next. -/
inductive Await where
  | value | valueOrClose | key | keyOrClose | colon | separator

/-- A parse in progress, the innermost open container first, or the value it came to and
    whether nothing follows that. -/
inductive Parse where
  | going (opened : List Open) (await : Await)
  | done (value : Reading) (isWhole : Bool)

namespace Parse

def start : Parse := .going [] .value

/-- A container, within those that are open, is unfit beyond the limit. -/
def bounded (limit : Nat) (opened : List Open) (container : Reading) : Reading :=
  if opened.length < limit then container
  else if container.isSound then .unfit
  else .broken

def complete (value : Reading) : List Open → Parse
  | [] => .done value true
  | .array items :: opened => .going (.array (value :: items) :: opened) .separator
  | .member members key :: opened =>
    .going (.object ((key, value) :: members) :: opened) .separator
  | .object members :: opened =>
    .going (.object ((.broken, value) :: members) :: opened) .separator

def ended (limit : Nat) (value : Reading) : List Open → Reading
  | [] => value
  | container :: opened => ended limit (bounded limit opened (container.endingWith value)) opened

def breakOff (limit : Nat) (opened : List Open) : Parse := .done (ended limit .broken opened) false

def beginValue (limit : Nat) (opened : List Open) : Token → Parse
  | .scalar .broken => breakOff limit opened
  | .scalar value => complete value opened
  | .arrayOpen => .going (.array [] :: opened) .valueOrClose
  | .objectOpen => .going (.object [] :: opened) .keyOrClose
  | _ => breakOff limit opened

/-- What a token shows of the value that it begins. -/
def glimpse : Token → Reading
  | .scalar value => value
  | .arrayOpen => .list []
  | .objectOpen => .object []
  | _ => .broken

def beginMember (limit : Nat) (members : List (Reading × Reading)) (opened : List Open)
    (token : Token) : Parse :=
  let opened := .member members (glimpse token) :: opened
  if (glimpse token).isQuoted then .going opened .colon else breakOff limit opened

def step (limit : Nat) (p : Parse) (token : Token) : Parse :=
  match p with
  | .done value _ => .done value false
  | .going opened await =>
    match await, token, opened with
    | .value, token, opened => beginValue limit opened token
    | .valueOrClose, .arrayClose, .array items :: opened =>
      complete (bounded limit opened (.list items.reverse)) opened
    | .valueOrClose, token, opened => beginValue limit opened token
    | .keyOrClose, .objectClose, .object members :: opened =>
      complete (bounded limit opened (.object members.reverse)) opened
    | .keyOrClose, token, .object members :: opened => beginMember limit members opened token
    | .key, token, .object members :: opened => beginMember limit members opened token
    | .colon, .colon, opened => .going opened .value
    | .separator, .comma, .array items :: opened => .going (.array items :: opened) .value
    | .separator, .comma, .object members :: opened => .going (.object members :: opened) .key
    | .separator, .arrayClose, .array items :: opened =>
      complete (bounded limit opened (.list items.reverse)) opened
    | .separator, .objectClose, .object members :: opened =>
      complete (bounded limit opened (.object members.reverse)) opened
    | _, _, opened => breakOff limit opened

end Parse

/-- A text after it was read: the value that it begins with, and whether that is all of it. -/
structure Text where
  value : Reading
  isWhole : Bool

def Parse.finish (limit : Nat) : Parse → Text
  | .going opened _ => ⟨ended limit .broken opened, false⟩
  | .done value isWhole => ⟨value, isWhole⟩

def Text.read (limit : Nat) (text : String) : Text :=
  ((tokens text).foldl (Parse.step limit) .start).finish limit

def parse? (limit : Nat) (text : String) : Option Json :=
  let t := Text.read limit text
  if t.isWhole then t.value.toJson? else none

end TypedSql.Json
