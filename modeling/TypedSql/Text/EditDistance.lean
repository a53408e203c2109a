namespace TypedSql

/-- The rest of a row of distances, from the distance to its `left` and from the row above
    it: `diagonal` stands above `left`, and `above` holds what follows. -/
def distanceCells (c : Char) (left diagonal : Nat) : List Char → List Nat → List Nat
  | t :: target, up :: above =>
    let here := min (min (left + 1) (up + 1)) (diagonal + if c = t then 0 else 1)
    here :: distanceCells c here up target above
  | _, _ => []

/-- One more character `c` of the source: from the distances of the shorter source to every
    beginning of `target`, those of the longer one. -/
def nextDistances (target : List Char) (row : List Nat) (c : Char) : List Nat :=
  match row with
  | [] => []
  | first :: above => (first + 1) :: distanceCells c (first + 1) first target above

/-- The least number of characters inserted, deleted or replaced that turns one text into
    the other. -/
def editDistance (source target : List Char) : Nat :=
  (source.foldl (nextDistances target) (List.range (target.length + 1))).getLastD 0

end TypedSql
