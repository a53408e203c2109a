namespace TypedSql

/-- A reader takes something off the front of a text and gives what follows, or refuses. -/
abbrev Reader (α : Type) := List Char → Option (α × List Char)

namespace Reader
variable {α : Type}

/-- Takes as many as there are, but not more than `limit`. -/
def manyUpTo (limit : Nat) (reader : Reader α) (text : List Char) : List α × List Char :=
  match limit with
  | 0 => ([], text)
  | limit + 1 =>
    match reader text with
    | none => ([], text)
    | some (a, rest) =>
      let more := manyUpTo limit reader rest
      (a :: more.1, more.2)

/-- Takes as many as there are. Each takes a character at least, so there are not more than
    characters. -/
def many (reader : Reader α) (text : List Char) : List α × List Char :=
  manyUpTo text.length reader text

def run1 (p : Char → Bool) : Reader (List Char) := fun text =>
  let taken := text.takeWhile p
  if taken.isEmpty then none else some (taken, text.dropWhile p)

def exactly (c : Char) : List Char → Option (List Char)
  | d :: rest => if d = c then some rest else none
  | [] => none

end Reader

end TypedSql
