namespace TypedSql.Path

def parts (path : String) : List String := path.splitOn "/"

def isAbsolute (path : String) : Bool := path.startsWith "/"

/-- Empty parts and single dots name nothing of their own. -/
def isSilent (part : String) : Bool := part == "" || part == "."

def fileName? (path : String) : Option String :=
  match (parts path).reverse.dropWhile isSilent with
  | name :: _ => if name == ".." then none else some name
  | [] => none

/-- What follows the last dot of a name. A dot at the front does not count. -/
def extensionOf? (name : String) : Option String :=
  let reversed := name.toList.reverse
  match reversed.dropWhile (· != '.') with
  | _ :: stem =>
    if stem.isEmpty then none
    else some (String.ofList (reversed.takeWhile (· != '.')).reverse)
  | [] => none

def extension? (path : String) : Option String := (fileName? path).bind extensionOf?

def directory (path : String) : String :=
  match (parts path).reverse.dropWhile isSilent with
  | [] => ""
  | _ :: above =>
    match above.dropWhile isSilent with
    | [] =>
      if isAbsolute path then "/"
      else if above.contains "." then "." else ""
    | kept => String.intercalate "/" kept.reverse

def join (directory path : String) : String :=
  if isAbsolute path || directory == "" then path
  else if directory.endsWith "/" then directory ++ path
  else directory ++ "/" ++ path

end TypedSql.Path
