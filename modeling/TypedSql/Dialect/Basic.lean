import TypedSql.Text.Occurs

namespace TypedSql

/-- The dialects of SQL that queries are written in. -/
inductive Dialect where
  | postgres | mySql | sqlite | sqlServer
  deriving DecidableEq, Repr

namespace Dialect

def all : List Dialect := [.postgres, .mySql, .sqlite, .sqlServer]

def display : Dialect → String
  | .postgres => "PostgreSQL"
  | .mySql => "MySQL"
  | .sqlite => "SQLite"
  | .sqlServer => "SQL Server"

def tag : Dialect → String
  | .postgres => "postgres"
  | .mySql => "mysql"
  | .sqlite => "sqlite"
  | .sqlServer => "sqlserver"

def names : Dialect → List String
  | .postgres => ["postgres", "postgresql", "pg"]
  | .mySql => ["mysql"]
  | .sqlite => ["sqlite"]
  | .sqlServer => ["sqlserver", "mssql", "tsql"]

def ofName? (name : String) : Option Dialect :=
  let lower := asciiLower name.toList
  all.find? fun d => d.names.any fun known => known.toList == lower

def unknownMessage (name : String) : String :=
  "unknown dialect '" ++ String.ofList (asciiLower name.toList) ++ "'"

end Dialect

end TypedSql
