import TypedSql.CommandLine.Arguments
import TypedSql.Config
import TypedSql.Document.Rendered
import TypedSql.Schema.Load
import TypedSql.Tree.Occurrence

namespace TypedSql.CommandLine

/-- What a run of the program leaves: its exit code and what it wrote. -/
structure Outcome where
  exit : Nat
  output : String := ""
  errors : String := ""
  deriving DecidableEq, Repr

def version : String := "quarry 0.1.0\n"

def usage : String := "Usage: quarry [OPTIONS] <COMMAND>\n"

def padRight (width : Nat) (text : String) : String :=
  text ++ String.ofList (List.replicate (width - text.length) ' ')

def padLeft (width : Nat) (text : String) : String :=
  String.ofList (List.replicate (width - text.length) ' ') ++ text

def tableRow (heading : String) (cell : Dialect → String) : String :=
  padRight 24 heading ++ String.join (Dialect.all.map fun d => padRight 12 (cell d)) ++ "\n"

def yesOrNo (b : Bool) : String := if b then "yes" else "no"

def featureRow (heading : String) (feature : Feature) : String :=
  tableRow heading fun d => yesOrNo (d.supports feature)

def capabilityTable : String :=
  "Dialect capabilities\n\n" ++ tableRow "" Dialect.display ++
  featureRow "DISTINCT ON" .distinctOn ++
  featureRow "NULLS FIRST/LAST" .nullsOrdering ++
  tableRow "Aggregate FILTER" (fun d => yesOrNo d.filtersAggregates) ++
  featureRow "FULL JOIN" (.join .full) ++
  featureRow "INTERSECT/EXCEPT ALL" (.setOperation .intersectAll) ++
  featureRow "JSON paths" .jsonPath ++
  featureRow "Vector distance" (.vectorOperator .l2Distance) ++
  featureRow "Row locking" .rowLock ++
  featureRow "Numbered placeholders" .numberedPlaceholders ++
  tableRow "Upsert" (fun d => yesOrNo (d.upsertStyle ≠ .unsupported)) ++
  tableRow "Affected rows" fun d =>
    match d.returningStyle with
    | .returning => "RETURNING"
    | .output => "OUTPUT"
    | .unsupported => "no"

def failure (before message : String) : Outcome :=
  { exit := 1, errors := before ++ "Error: " ++ message ++ "\n" }

def refusal (path : String) (faults : List NameError) : Outcome :=
  failure (String.join (faults.map fun e => "  ✗ " ++ e.message ++ "\n"))
    (toString faults.length ++ " identifier error(s) in " ++ path)

def parameterLines (position : Nat) : List String → String
  | [] => ""
  | name :: rest =>
    "  " ++ padLeft 3 (toString position) ++ "  " ++ name ++ "\n" ++
      parameterLines (position + 1) rest

def listing (r : Rendered) : String :=
  "Generated SQL:\n" ++ r.sql ++ "\n" ++
    if r.params.isEmpty then "" else "\nParameters:\n" ++ parameterLines 1 r.params

/-- The options of a rendering: what the arguments say goes before the configuration. -/
def renderOptions (config : Config) (s : Settings) : RenderOptions where
  dialect := s.dialect.getD config.render.dialect
  maxSubqueryDepth := s.maxDepth.getD config.render.maxSubqueryDepth
  placeholders := if s.numbered then .numbered else config.render.placeholders

variable {m : Type → Type} [Monad m]

def loadChecked (files : FileAccess m) (config : Config) (s : Settings) (query : String) :
    m (Except Outcome Statement) := do
  match s.schema.or config.schema with
  | none =>
    pure (.error (failure ""
      "no schema given; pass --schema or set `schema` in quarry.toml"))
  | some schemaPath =>
    match ← Schema.ofFile files schemaPath with
    | .error e => pure (.error (failure "" e.message))
    | .ok schema =>
      match ← files.read query with
      | none => pure (.error (failure "" ("failed to read " ++ query)))
      | some text =>
        match Statement.decode.fromText text with
        | .error _ => pure (.error (failure "" ("invalid query document " ++ query)))
        | .ok statement =>
          match schema.catalog.validateStatement statement with
          | [] => pure (.ok statement)
          | faults => pure (.error (refusal query faults))

def renderStatement (config : Config) (s : Settings) (statement : Statement) : Outcome :=
  let options := renderOptions config s
  let heading := if s.verbose then "Dialect: " ++ options.dialect.display ++ "\n" else ""
  match statement.toSql options with
  | .error e => { failure "" e.message with output := heading }
  | .ok rendered =>
    let body :=
      if s.json then rendered.toJson.pretty ++ "\n" else listing rendered
    { exit := 0, output := heading ++ body }

def reportValid (statement : Statement) : Outcome :=
  let kind := match statement with
    | .query _ => "query"
    | .compound _ => "compound query"
  { exit := 0, output := "✓ " ++ kind ++ " is valid\n" }

def execute (files : FileAccess m) (config : Config) (invocation : Invocation) : m Outcome := do
  let s := invocation.settings
  match invocation.command with
  | .dialects => pure { exit := 0, output := capabilityTable }
  | .check =>
    match ← loadChecked files config s (s.query.getD "") with
    | .error outcome => pure outcome
    | .ok statement => pure (reportValid statement)
  | .render =>
    match ← loadChecked files config s (s.query.getD "") with
    | .error outcome => pure outcome
    | .ok statement => pure (renderStatement config s statement)

structure Environment where
  config : Option String := none
  configHome : Option String := none

def run (files : FileAccess m) (environment : Environment) (arguments : List String) :
    m Outcome := do
  match parse environment.config arguments with
  | .error .rejected => pure { exit := 2, errors := usage }
  | .error .help => pure { exit := 0, output := usage }
  | .error .version => pure { exit := 0, output := version }
  | .ok invocation =>
    let config ← (match invocation.settings.config with
      | some path => Config.ofFile files path
      | none => Config.load files environment.configHome)
    match config with
    | .error e => pure (failure "" e.message)
    | .ok config => execute files config invocation

end TypedSql.CommandLine
