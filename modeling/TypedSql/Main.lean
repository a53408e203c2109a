import TypedSql.CommandLine.Run

namespace TypedSql.CommandLine

def systemFiles : FileAccess IO where
  read path := do
    match ← (IO.FS.readFile path).toBaseIO with
    | .ok text => pure (some text)
    | .error _ => pure none
  isFile path := do
    match ← (IO.FS.readBinFile path).toBaseIO with
    | .ok _ => pure true
    | .error _ => pure false

/-- Configurations lie where the environment says, else below the home directory. -/
def systemEnvironment : BaseIO Environment := do
  let given ← IO.getEnv "XDG_CONFIG_HOME"
  let home ← IO.getEnv "HOME"
  let below := (home.filter fun h => !h.isEmpty).map fun h => Path.join h ".config"
  pure { config := ← IO.getEnv "QUARRY_CONFIG"
         configHome := (given.filter fun g => Path.isAbsolute g).or below }

end TypedSql.CommandLine

def main (arguments : List String) : IO UInt32 := do
  let environment ← TypedSql.CommandLine.systemEnvironment
  let outcome ← TypedSql.CommandLine.run TypedSql.CommandLine.systemFiles environment arguments
  IO.print outcome.output
  IO.eprint outcome.errors
  pure outcome.exit.toUInt32
