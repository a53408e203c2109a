namespace TypedSql

def doubled (closing : Char) (cs : List Char) : List Char :=
  cs.flatMap fun c => if c = closing then [c, c] else [c]

/-- A name between its delimiters. The closing delimiter is doubled inside, so the name
    cannot end its own quotes. -/
def quoted (opening closing : Char) (name : String) : String :=
  String.ofList (opening :: doubled closing name.toList ++ [closing])

end TypedSql
