import TypedSql.Files
import TypedSql.Schema.Document
import TypedSql.Toml.Parser

namespace TypedSql

inductive SchemaError where
  | unreadable (path : String)
  | json
  | toml
  | script (line : String)
  deriving DecidableEq, Repr

def SchemaError.message : SchemaError → String
  | .unreadable path => "Failed to read schema file " ++ path
  | .json => "Invalid JSON schema"
  | .toml => "Invalid TOML schema"
  | .script line => "Schema parse error: unexpected content: '" ++ line ++ "'"

namespace Schema

def ofScript (text : String) : Except SchemaError Schema :=
  (Script.parse text).mapError .script

def ofJson (text : String) : Except SchemaError Schema :=
  (decode.fromText text).mapError fun _ => .json

def ofToml (text : String) : Except SchemaError Schema :=
  match Toml.parse? text with
  | none => .error .toml
  | some j => (decode (.held j)).mapError fun _ => .toml

/-- The form of a schema file goes by the extension of its name. -/
def ofText (extension : Option String) (text : String) : Except SchemaError Schema :=
  if extension = some "json" then ofJson text
  else if extension = some "toml" then ofToml text
  else ofScript text

def ofFile {m : Type → Type} [Monad m] (files : FileAccess m) (path : String) :
    m (Except SchemaError Schema) := do
  match ← files.read path with
  | none => pure (.error (.unreadable path))
  | some text => pure (ofText (Path.extension? path) text)

end Schema

end TypedSql
