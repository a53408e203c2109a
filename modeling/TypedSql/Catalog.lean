import TypedSql.Name.Gated
import TypedSql.Text.EditDistance

namespace TypedSql

/-- What decides whether a table or a field exists. The lists serve suggestions only. -/
structure Catalog where
  tableExists : String → Bool
  fieldExists : String → Bool
  aliasRegistered : String → Bool := fun _ => false
  tableNames : List String := []
  fieldNames : List String := []

/-- How far a suggestion may be from a name of that many bytes. -/
def suggestionLimit (bytes : Nat) : Nat :=
  if bytes ≤ 2 then 0 else if bytes ≤ 5 then 2 else 3

def leastEntry : List (String × Nat) → Option (String × Nat)
  | [] => none
  | entry :: rest =>
    match leastEntry rest with
    | some best => if best.2 < entry.2 then some best else some entry
    | none => some entry

/-- The nearest candidate within the limit, the first of several; never the name itself. -/
def suggest (name : String) (candidates : List String) : Option String :=
  let near := candidates.filterMap fun c =>
    let d := editDistance name.toList c.toList
    if 0 < d ∧ d ≤ suggestionLimit name.utf8ByteSize then some (c, d) else none
  (leastEntry near).map (·.1)

namespace Catalog

/-- Admits or refuses a name: tables and fields must be known, a registered alias always
    passes, and all else goes through the gate. -/
def check (catalog : Catalog) (kind : NameKind) (name : String) : Except NameError Unit :=
  if name.isEmpty then .error (.empty kind)
  else match kind with
    | .table =>
      if catalog.tableExists name then .ok ()
      else .error (.unknownTable name (suggest name catalog.tableNames))
    | .field =>
      if catalog.fieldExists name then .ok ()
      else .error (.unknownField name (suggest name catalog.fieldNames))
    | .outputAlias =>
      if catalog.aliasRegistered name then .ok () else checkName .outputAlias name
    | .parameter => checkName .parameter name
    | .jsonKey => checkName .jsonKey name

end Catalog

def Alias.withCatalog (catalog : Catalog) (name : String) : Except NameError Alias :=
  (catalog.check .outputAlias name).map fun () => ⟨name⟩

end TypedSql
