import TypedSql.Dialect.Basic
import TypedSql.Text.Decimal

namespace TypedSql.CommandLine

inductive CommandName where
  | render | check | dialects
  deriving DecidableEq, Repr

def CommandName.ofName? : String → Option CommandName
  | "render" => some .render
  | "check" => some .check
  | "dialects" => some .dialects
  | _ => none

inductive ValueOption where
  | config | schema | dialect | maxDepth
  deriving DecidableEq, Repr

inductive Flag where
  | verbose | numbered | json
  deriving DecidableEq, Repr

/-- What an argument that starts with a hyphen can name. -/
inductive Switch where
  | value (option : ValueOption)
  | flag (flag : Flag)
  | help
  | version

/-- Every level knows the global switches; the others belong to commands. -/
def Switch.isAdmitted (command : Option CommandName) : Switch → Bool
  | .value .config | .flag .verbose | .help => true
  | .version => command.isNone
  | .value .schema => command == some .render || command == some .check
  | .value .dialect | .value .maxDepth | .flag .numbered | .flag .json =>
    command == some .render

def Switch.ofLong? : String → Option Switch
  | "config" => some (.value .config)
  | "schema" => some (.value .schema)
  | "dialect" => some (.value .dialect)
  | "max-depth" => some (.value .maxDepth)
  | "verbose" => some (.flag .verbose)
  | "numbered" => some (.flag .numbered)
  | "json" => some (.flag .json)
  | "help" => some .help
  | "version" => some .version
  | _ => none

def Switch.ofShort? : Char → Option Switch
  | 'c' => some (.value .config)
  | 's' => some (.value .schema)
  | 'd' => some (.value .dialect)
  | 'v' => some (.flag .verbose)
  | 'h' => some .help
  | 'V' => some .version
  | _ => none

structure Settings where
  config : Option String := none
  schema : Option String := none
  dialect : Option Dialect := none
  maxDepth : Option UInt64 := none
  verbose : Bool := false
  numbered : Bool := false
  json : Bool := false
  query : Option String := none

inductive Stop where
  | rejected | help | version
  deriving DecidableEq, Repr

/-- A number of 64 bits, perhaps with a plus sign. -/
def parseDepth? (text : String) : Option UInt64 :=
  let digits := match text.toList with
    | '+' :: rest => rest
    | digits => digits
  if digits.isEmpty || !digits.all Char.isDigit then none
  else
    let n := Decimal.natOfDigits digits
    if n < UInt64.size then some (UInt64.ofNat n) else none

namespace Settings

def once {α : Type} (present : Option α) (value : Option α) : Except Stop (Option α) :=
  match present, value with
  | none, some value => .ok (some value)
  | _, _ => .error .rejected

def nonEmpty? (text : String) : Option String := if text.isEmpty then none else some text

def setValue (s : Settings) (option : ValueOption) (text : String) : Except Stop Settings :=
  match option with
  | .config => (once s.config (nonEmpty? text)).map fun config => { s with config }
  | .schema => (once s.schema (nonEmpty? text)).map fun schema => { s with schema }
  | .dialect => (once s.dialect (Dialect.ofName? text)).map fun dialect => { s with dialect }
  | .maxDepth => (once s.maxDepth (parseDepth? text)).map fun maxDepth => { s with maxDepth }

def setFlag (s : Settings) (flag : Flag) : Except Stop Settings :=
  match flag with
  | .verbose => if s.verbose then .error .rejected else .ok { s with verbose := true }
  | .numbered => if s.numbered then .error .rejected else .ok { s with numbered := true }
  | .json => if s.json then .error .rejected else .ok { s with json := true }

def setQuery (s : Settings) (text : String) : Except Stop Settings :=
  (once s.query (nonEmpty? text)).map fun query => { s with query }

end Settings

def isSwitch (argument : String) : Bool := argument.startsWith "-" && argument != "-"

/-- An argument that can be the value of the option before it. -/
def valueArgument : List String → Except Stop (String × List String)
  | argument :: rest => if isSwitch argument then .error .rejected else .ok (argument, rest)
  | [] => .error .rejected

/-- Letters after one hyphen. What follows an option is its value, with or without an equals
    sign; if nothing does, the next argument is. -/
def readShort (command : Option CommandName) (s : Settings) (following : List String) :
    List Char → Except Stop (Settings × List String)
  | [] => .ok (s, following)
  | c :: rest => do
    match (Switch.ofShort? c).filter (·.isAdmitted command) with
    | none => .error .rejected
    | some .help => .error .help
    | some .version => .error .version
    | some (.flag flag) => readShort command (← s.setFlag flag) following rest
    | some (.value option) =>
      match rest with
      | [] =>
        let (text, following) ← valueArgument following
        let s ← s.setValue option text
        .ok (s, following)
      | '=' :: text => .ok (← s.setValue option (String.ofList text), following)
      | text => .ok (← s.setValue option (String.ofList text), following)

/-- A name after two hyphens, perhaps with an equals sign and a value. -/
def readLong (command : Option CommandName) (s : Settings) (following : List String)
    (text : List Char) : Except Stop (Settings × List String) := do
  let name := String.ofList (text.takeWhile (· != '='))
  let attached := match text.dropWhile (· != '=') with
    | [] => none
    | _ :: value => some (String.ofList value)
  match (Switch.ofLong? name).filter (·.isAdmitted command), attached with
  | some .help, none => .error .help
  | some .version, none => .error .version
  | some (.flag flag), none => .ok (← s.setFlag flag, following)
  | some (.value option), some value => .ok (← s.setValue option value, following)
  | some (.value option), none =>
    let (value, following) ← valueArgument following
    .ok (← s.setValue option value, following)
  | _, _ => .error .rejected

/-- Reads the arguments of a command. After two hyphens alone nothing is a switch. -/
def readCommand (command : CommandName) (limit : Nat) (s : Settings) (plain : Bool)
    (arguments : List String) : Except Stop Settings := do
  match arguments, limit with
  | [], _ => .ok s
  | _, 0 => .error .rejected
  | argument :: rest, limit + 1 =>
    if plain || !isSwitch argument then
      if command = .dialects then .error .rejected
      else readCommand command limit (← s.setQuery argument) plain rest
    else match argument.toList with
      | ['-', '-'] => readCommand command limit s true rest
      | '-' :: '-' :: text =>
        let (s, rest) ← readLong (some command) s rest text
        readCommand command limit s plain rest
      | text =>
        let (s, rest) ← readShort (some command) s rest text.tail
        readCommand command limit s plain rest

def helpOn : List String → Stop
  | [] => .help
  | [name] => if name == "help" || (CommandName.ofName? name).isSome then .help else .rejected
  | _ => .rejected

/-- Reads the arguments before the command, and finds the command. -/
def readGlobal (limit : Nat) (s : Settings) (arguments : List String) :
    Except Stop (Settings × CommandName × List String) := do
  match arguments, limit with
  | [], _ => .error .rejected
  | _, 0 => .error .rejected
  | argument :: rest, limit + 1 =>
    if !isSwitch argument then
      match CommandName.ofName? argument with
      | some command => .ok (s, command, rest)
      | none => .error (if argument == "help" then helpOn rest else .rejected)
    else match argument.toList with
      | ['-', '-'] => .error .rejected
      | '-' :: '-' :: text =>
        let (s, rest) ← readLong none s rest text
        readGlobal limit s rest
      | text =>
        let (s, rest) ← readShort none s rest text.tail
        readGlobal limit s rest

structure Invocation where
  command : CommandName
  settings : Settings

/-- The configuration file: the one named last, else the one of the environment, which may be
    asked for on both levels and must not be empty then. -/
def chooseConfig (outer inner environment : Option String) : Except Stop (Option String) :=
  match outer, inner, environment with
  | some _, some path, _ => .ok (some path)
  | _, _, some "" => .error .rejected
  | _, some path, _ => .ok (some path)
  | some path, none, _ => .ok (some path)
  | none, none, environment => .ok environment

def parse (environment : Option String) (arguments : List String) : Except Stop Invocation := do
  let (outer, command, rest) ← readGlobal arguments.length {} arguments
  let inner ← readCommand command rest.length {} false rest
  if command ≠ .dialects ∧ inner.query.isNone then .error .rejected
  else
    let config ← chooseConfig outer.config inner.config environment
    .ok ⟨command, { inner with config, verbose := outer.verbose || inner.verbose }⟩

end TypedSql.CommandLine
