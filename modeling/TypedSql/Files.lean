import TypedSql.Path

namespace TypedSql

/-- The way to files. Reading gives nothing for what is no readable text. -/
structure FileAccess (m : Type → Type) where
  read : String → m (Option String)
  isFile : String → m Bool

structure FileTree where
  files : List (List String × String)

namespace FileTree

def ofList (files : List (String × String)) : FileTree :=
  ⟨files.map fun file => ((Path.parts file.1).filter fun part => !Path.isSilent part, file.2)⟩

def isDirectory (t : FileTree) (directory : List String) : Bool :=
  directory.isEmpty ||
    t.files.any fun file => directory.isPrefixOf file.1 && directory.length < file.1.length

/-- Follows the parts of a path, every one of which but the last has to be a directory. There
    is nothing above the working directory. -/
def follow (t : FileTree) (directory : List String) : List String → Option (List String)
  | [] => some directory
  | part :: rest =>
    if !t.isDirectory directory then none
    else if Path.isSilent part then t.follow directory rest
    else if part == ".." then
      if directory.isEmpty then none else t.follow directory.dropLast rest
    else t.follow (directory ++ [part]) rest

def read? (t : FileTree) (path : String) : Option String :=
  if Path.isAbsolute path then none
  else (t.follow [] (Path.parts path)).bind fun names => t.files.lookup names

def access (t : FileTree) : FileAccess Id where
  read path := t.read? path
  isFile path := (t.read? path).isSome

end FileTree

end TypedSql
