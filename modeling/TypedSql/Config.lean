import TypedSql.Document.Reader
import TypedSql.Files
import TypedSql.Toml.Parser

namespace TypedSql

structure Config where
  render : RenderOptions := {}
  schema : Option String := none
  deriving DecidableEq, Repr

inductive ConfigError where
  | unreadable (path : String)
  | invalid (path : String)
  deriving DecidableEq, Repr

def ConfigError.message : ConfigError → String
  | .unreadable path => "Failed to read config " ++ path
  | .invalid path => "Invalid config " ++ path

namespace Config

def fileName : String := "quarry.toml"

/-- Where the user's own configuration lies, below the directory of configurations. -/
def userFile (configHome : String) : String :=
  Path.join (Path.join configHome "quarry") "config.toml"

def decode : Decoder Config := .object <|
  (fun dialect depth placeholders schema => { render := ⟨dialect, depth, placeholders⟩, schema })
    <$> Members.defaulted "dialect" .postgres Tagged.decode
    <*> Members.defaulted "max_subquery_depth" 3 .uint64
    <*> Members.defaulted "placeholders" .named Tagged.decode
    <*> Members.optional "schema" .string

def ofToml? (text : String) : Option Config :=
  (Toml.parse? text).bind fun j => (decode (.held j)).toOption

/-- A schema is looked for from where the configuration lies. -/
def relativeTo (config : Config) (path : String) : Config :=
  { config with schema := config.schema.map (Path.join (Path.directory path)) }

variable {m : Type → Type} [Monad m]

def ofFile (files : FileAccess m) (path : String) : m (Except ConfigError Config) := do
  match ← files.read path with
  | none => pure (.error (.unreadable path))
  | some text =>
    match ofToml? text with
    | none => pure (.error (.invalid path))
    | some config => pure (.ok (config.relativeTo path))

/-- The configuration of the working directory, else the user's, else none. -/
def discover (files : FileAccess m) (configHome : Option String) : m (Option String) := do
  if ← files.isFile fileName then pure (some fileName)
  else match configHome with
    | none => pure none
    | some home =>
      if ← files.isFile (userFile home) then pure (some (userFile home)) else pure none

def load (files : FileAccess m) (configHome : Option String) : m (Except ConfigError Config) := do
  match ← discover files configHome with
  | some path => ofFile files path
  | none => pure (.ok {})

end Config

end TypedSql
