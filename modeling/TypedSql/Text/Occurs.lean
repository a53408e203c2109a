namespace TypedSql

/-- Whether `needle` stands somewhere in the text as a run of neighbours. -/
def occurs (needle : List Char) : List Char → Bool
  | [] => needle.isEmpty
  | c :: rest => needle.isPrefixOf (c :: rest) || occurs needle rest

/-- Letters of ASCII in lower case, everything else as it is. -/
def asciiLower (cs : List Char) : List Char := cs.map Char.toLower

end TypedSql
