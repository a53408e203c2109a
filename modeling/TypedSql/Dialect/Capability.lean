import TypedSql.Dialect.Basic
import TypedSql.Tree.Operator

namespace TypedSql

/-- What some dialect cannot express. -/
inductive Feature where
  | jsonPath
  | vectorOperator (op : BinaryOp)
  | numberedPlaceholders
  | distinctOn
  | nullsOrdering
  | join (kind : JoinKind)
  | setOperation (op : SetOperation)
  | rowLock
  | cast (type : CastType)
  | returning
  | qualifiedOutput
  | onConflict
  deriving DecidableEq, Repr

def Feature.text : Feature → String
  | .jsonPath => "JSON path access"
  | .vectorOperator op => "vector operator " ++ op.symbol
  | .numberedPlaceholders => "numbered placeholders"
  | .distinctOn => "DISTINCT ON"
  | .nullsOrdering => "NULLS FIRST/LAST"
  | .join kind => kind.keyword ++ " JOIN"
  | .setOperation op => op.display
  | .rowLock => "row locking"
  | .cast type => "CAST to " ++ type.display
  | .returning => "RETURNING"
  | .qualifiedOutput => "qualified or JSON fields in OUTPUT"
  | .onConflict => "ON CONFLICT"

inductive ReturningStyle where
  | returning | output | unsupported
  deriving DecidableEq, Repr

inductive UpsertStyle where
  | onConflict | onDuplicateKey | unsupported
  deriving DecidableEq, Repr

namespace Dialect

def typeName? : Dialect → CastType → Option String
  | .postgres, .text => some "TEXT"
  | .postgres, .integer => some "INTEGER"
  | .postgres, .bigInt => some "BIGINT"
  | .postgres, .numeric => some "NUMERIC"
  | .postgres, .double => some "DOUBLE PRECISION"
  | .postgres, .boolean => some "BOOLEAN"
  | .postgres, .date => some "DATE"
  | .postgres, .timestamp => some "TIMESTAMP"
  | .postgres, .json => some "JSONB"
  | .postgres, .uuid => some "UUID"
  | .mySql, .text => some "CHAR"
  | .mySql, .integer | .mySql, .bigInt => some "SIGNED"
  | .mySql, .numeric => some "DECIMAL(65, 30)"
  | .mySql, .double => some "DOUBLE"
  | .mySql, .boolean => none
  | .mySql, .date => some "DATE"
  | .mySql, .timestamp => some "DATETIME"
  | .mySql, .json => some "JSON"
  | .mySql, .uuid => some "CHAR(36)"
  | .sqlite, .text | .sqlite, .date | .sqlite, .timestamp | .sqlite, .uuid => some "TEXT"
  | .sqlite, .integer | .sqlite, .bigInt | .sqlite, .boolean => some "INTEGER"
  | .sqlite, .numeric => some "NUMERIC"
  | .sqlite, .double => some "REAL"
  | .sqlite, .json => none
  | .sqlServer, .text => some "NVARCHAR(MAX)"
  | .sqlServer, .integer => some "INT"
  | .sqlServer, .bigInt => some "BIGINT"
  | .sqlServer, .numeric => some "DECIMAL(38, 10)"
  | .sqlServer, .double => some "FLOAT"
  | .sqlServer, .boolean => some "BIT"
  | .sqlServer, .date => some "DATE"
  | .sqlServer, .timestamp => some "DATETIME2"
  | .sqlServer, .json => none
  | .sqlServer, .uuid => some "UNIQUEIDENTIFIER"

def supports (d : Dialect) : Feature → Bool
  | .jsonPath => d == .postgres || d == .mySql
  | .vectorOperator _ => d == .postgres
  | .numberedPlaceholders => d != .mySql
  | .distinctOn => d == .postgres
  | .nullsOrdering => d == .postgres || d == .sqlite
  | .join kind => !(d == .mySql && kind == .full)
  | .setOperation op =>
    !((d == .sqlite || d == .sqlServer) && (op == .intersectAll || op == .exceptAll))
  | .rowLock => d != .sqlite
  | .cast type => (d.typeName? type).isSome
  | .returning => d != .mySql
  | .qualifiedOutput => d != .sqlServer
  | .onConflict => d != .sqlServer

/-- Whether an aggregate takes a filter of its own; elsewhere the filter becomes a case
    expression in its argument. -/
def filtersAggregates : Dialect → Bool
  | .postgres | .sqlite => true
  | .mySql | .sqlServer => false

def returningStyle : Dialect → ReturningStyle
  | .postgres | .sqlite => .returning
  | .mySql => .unsupported
  | .sqlServer => .output

def upsertStyle : Dialect → UpsertStyle
  | .postgres | .sqlite => .onConflict
  | .mySql => .onDuplicateKey
  | .sqlServer => .unsupported

end Dialect

end TypedSql
