import TypedSql.Render.Basic
import TypedSql.Tree.Field

namespace TypedSql

inductive LockClause where
  | suffix (text : String)
  | tableHint (text : String)
  deriving DecidableEq, Repr

def tableWithAlias (table : Sql) (letter : TableAlias) : Sql :=
  table ++ sql (" " ++ letter.display)

namespace Dialect

/-- Pagination after a query; `ordered` says whether an order was written before it. MySQL
    and SQLite have no offset without a limit, SQL Server no pagination without an order. -/
def pagination (d : Dialect) (limit offset : Option UInt64) (ordered : Bool) : String :=
  match d with
  | .postgres =>
    (limit.elim "" fun n => " LIMIT " ++ toString n.toNat) ++
      offset.elim "" fun n => " OFFSET " ++ toString n.toNat
  | .mySql => withLimit "18446744073709551615"
  | .sqlite => withLimit "-1"
  | .sqlServer =>
    if limit.isNone && offset.isNone then ""
    else
      (if ordered then "" else " ORDER BY (SELECT NULL)") ++
        " OFFSET " ++ toString (offset.getD 0).toNat ++ " ROWS" ++
        limit.elim "" fun n => " FETCH NEXT " ++ toString n.toNat ++ " ROWS ONLY"
where
  withLimit (unlimited : String) : String :=
    match limit, offset with
    | some n, some m => " LIMIT " ++ toString n.toNat ++ " OFFSET " ++ toString m.toNat
    | some n, none => " LIMIT " ++ toString n.toNat
    | none, some m => " LIMIT " ++ unlimited ++ " OFFSET " ++ toString m.toNat
    | none, none => ""

def lockSuffix (lock : RowLock) : String :=
  (match lock.strength with
    | .update => " FOR UPDATE"
    | .share => " FOR SHARE") ++
  match lock.wait with
  | .wait => ""
  | .noWait => " NOWAIT"
  | .skipLocked => " SKIP LOCKED"

def lockHint (lock : RowLock) : String :=
  "WITH (" ++
    (match lock.strength with
      | .update => "UPDLOCK"
      | .share => "HOLDLOCK") ++ ", ROWLOCK" ++
    (match lock.wait with
      | .wait => ""
      | .noWait => ", NOWAIT"
      | .skipLocked => ", READPAST") ++ ")"

def lockClause (d : Dialect) (lock : RowLock) : Except RenderError LockClause := do
  d.require .rowLock
  pure <| match d with
    | .sqlServer => .tableHint (lockHint lock)
    | _ => .suffix (lockSuffix lock)

/-- Membership in a parameter whose value is an array. -/
def inArray (d : Dialect) (column placeholder : Sql) : Sql :=
  match d with
  | .postgres => column ++ sql " = ANY(" ++ placeholder ++ sql ")"
  | .mySql => column ++ sql " MEMBER OF(CAST(" ++ placeholder ++ sql " AS JSON))"
  | .sqlite => column ++ sql " IN (SELECT value FROM json_each(" ++ placeholder ++ sql "))"
  | .sqlServer => column ++ sql " IN (SELECT value FROM OPENJSON(" ++ placeholder ++ sql "))"

def notInArray (d : Dialect) (column placeholder : Sql) : Sql :=
  match d with
  | .postgres => column ++ sql " != ALL(" ++ placeholder ++ sql ")"
  | .mySql => sql "NOT (" ++ column ++ sql " MEMBER OF(CAST(" ++ placeholder ++ sql " AS JSON)))"
  | .sqlite => column ++ sql " NOT IN (SELECT value FROM json_each(" ++ placeholder ++ sql "))"
  | .sqlServer =>
    column ++ sql " NOT IN (SELECT value FROM OPENJSON(" ++ placeholder ++ sql "))"

def iLike (d : Dialect) (column placeholder : Sql) (negated : Bool) : Sql :=
  let not := if negated then "NOT " else ""
  match d with
  | .postgres => column ++ sql (" " ++ not ++ "ILIKE ") ++ placeholder
  | _ =>
    sql "LOWER(" ++ column ++ sql (") " ++ not ++ "LIKE LOWER(") ++ placeholder ++ sql ")"

/-- A step of a path written as an operator of its own; only a last step can yield text. -/
def pathHop (operator : String) : PathSegment → Sql
  | .key key => [.text operator, .literal key.name]
  | .index index => sql (operator ++ toString index.toNat)

def pathHops (asText : Bool) : List PathSegment → Sql
  | [] => []
  | [last] => pathHop (if asText then "->>" else "->") last
  | hop :: rest => pathHop "->" hop ++ pathHops asText rest

/-- A step of a path written inside one literal. -/
def pathStep : PathSegment → String
  | .key key => "." ++ key.name
  | .index index => "[" ++ toString index.toNat ++ "]"

def jsonAccess (d : Dialect) (column : Sql) (path : JsonPath) : Except RenderError Sql := do
  d.require .jsonPath
  pure <| match d with
    | .mySql =>
      column ++ [.text (if path.asText then "->>" else "->"),
        .literal ("$" ++ String.join (path.segments.map pathStep))]
    | _ => column ++ pathHops path.asText path.segments

def binary (d : Dialect) (left : Sql) (op : BinaryOp) (right : Sql) :
    Except RenderError Sql := do
  if op.isVector then d.require (.vectorOperator op)
  pure <| match d, op with
    | .mySql, .concat => sql "CONCAT(" ++ left ++ sql ", " ++ right ++ sql ")"
    | .sqlServer, .concat => left ++ sql " + " ++ right
    | _, op => left ++ sql (" " ++ op.symbol ++ " ") ++ right

def call (name : String) (column : Sql) : Option Sql → Sql
  | some argument => sql (name ++ "(") ++ column ++ sql ", " ++ argument ++ sql ")"
  | none => sql (name ++ "(") ++ column ++ sql ")"

/-- SQL Server spells CEIL out and rounds to an explicit length only. -/
def mathCall (d : Dialect) (function : MathFunction) (column : Sql) (argument : Option Sql) :
    Sql :=
  match d, function, argument with
  | .sqlServer, .ceil, _ => call "CEILING" column none
  | .sqlServer, .round, none => call "ROUND" column (some (sql "0"))
  | _, function, argument => call function.display column argument

def castType (d : Dialect) (type : CastType) : Except RenderError String :=
  match d.typeName? type with
  | some name => .ok name
  | none => .error (.unsupported d (.cast type))

end Dialect

end TypedSql
