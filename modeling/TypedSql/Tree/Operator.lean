namespace TypedSql

/-- What a query does. `count` reads the number of rows only. -/
inductive Operation where
  | select | insert | update | delete | count
  deriving DecidableEq, Repr

def Operation.display : Operation → String
  | .select => "SELECT"
  | .insert => "INSERT"
  | .update => "UPDATE"
  | .delete => "DELETE"
  | .count => "COUNT"

inductive Connective where
  | and | or
  deriving DecidableEq, Repr

def Connective.keyword : Connective → String
  | .and => "AND"
  | .or => "OR"

inductive Direction where
  | asc | desc
  deriving DecidableEq, Repr

inductive NullsPlacement where
  | first | last
  deriving DecidableEq, Repr

/-- What a condition asks of its left side. `iLike` ignores letter case; `isIn` asks for
    membership in an array or a subquery; the last two take a subquery only. -/
inductive Operator where
  | eq | ne | gt | gte | lt | lte
  | like | notLike | iLike | notILike
  | isIn | notIn
  | isNull | isNotNull
  | exists | notExists
  deriving DecidableEq, Repr

namespace Operator

def symbol : Operator → String
  | .eq => "="
  | .ne => "!="
  | .gt => ">"
  | .gte => ">="
  | .lt => "<"
  | .lte => "<="
  | .like => "LIKE"
  | .notLike => "NOT LIKE"
  | .iLike => "ILIKE"
  | .notILike => "NOT ILIKE"
  | .isIn => "IN"
  | .notIn => "NOT IN"
  | .isNull => "IS NULL"
  | .isNotNull => "IS NOT NULL"
  | .exists => "EXISTS"
  | .notExists => "NOT EXISTS"

def isComparison : Operator → Bool
  | .eq | .ne | .gt | .gte | .lt | .lte => true
  | _ => false

def isPattern : Operator → Bool
  | .like | .notLike | .iLike | .notILike => true
  | _ => false

def isUnary : Operator → Bool
  | .isNull | .isNotNull => true
  | _ => false

def isMembership : Operator → Bool
  | .isIn | .notIn => true
  | _ => false

def isExistence : Operator → Bool
  | .exists | .notExists => true
  | _ => false

/-- Operators that compare their left side with one parameter. -/
def takesParam (op : Operator) : Bool := op.isComparison || op.isPattern || op.isMembership

end Operator

inductive JoinKind where
  | inner | left | right | full | cross
  deriving DecidableEq, Repr

def JoinKind.keyword : JoinKind → String
  | .inner => "INNER"
  | .left => "LEFT"
  | .right => "RIGHT"
  | .full => "FULL"
  | .cross => "CROSS"

def JoinKind.requiresCondition : JoinKind → Bool
  | .cross => false
  | _ => true

inductive SetOperation where
  | union | unionAll | intersect | intersectAll | except | exceptAll
  deriving DecidableEq, Repr

def SetOperation.display : SetOperation → String
  | .union => "UNION"
  | .unionAll => "UNION ALL"
  | .intersect => "INTERSECT"
  | .intersectAll => "INTERSECT ALL"
  | .except => "EXCEPT"
  | .exceptAll => "EXCEPT ALL"

inductive LockStrength where
  | update | share
  deriving DecidableEq, Repr

/-- What a reader does about a row that is locked already. -/
inductive LockWait where
  | wait | noWait | skipLocked
  deriving DecidableEq, Repr

structure RowLock where
  strength : LockStrength
  wait : LockWait := .wait
  deriving DecidableEq, Repr

namespace RowLock

def forUpdate : RowLock := ⟨.update, .wait⟩

def forShare : RowLock := ⟨.share, .wait⟩

def noWait (lock : RowLock) : RowLock := { lock with wait := .noWait }

def skipLocked (lock : RowLock) : RowLock := { lock with wait := .skipLocked }

end RowLock

inductive AggregateKind where
  | sum | avg | min | max | count | countDistinct
  deriving DecidableEq, Repr

namespace AggregateKind

def functionName : AggregateKind → String
  | .sum => "SUM"
  | .avg => "AVG"
  | .min => "MIN"
  | .max => "MAX"
  | .count | .countDistinct => "COUNT"

def display : AggregateKind → String
  | .countDistinct => "COUNT(DISTINCT)"
  | kind => kind.functionName

def qualifier : AggregateKind → String
  | .countDistinct => "DISTINCT "
  | _ => ""

end AggregateKind

/-- Functions of one number. Rounding may take a precision, a power needs its exponent. -/
inductive MathFunction where
  | round | floor | ceil | abs | power | sqrt
  deriving DecidableEq, Repr

def MathFunction.display : MathFunction → String
  | .round => "ROUND"
  | .floor => "FLOOR"
  | .ceil => "CEIL"
  | .abs => "ABS"
  | .power => "POWER"
  | .sqrt => "SQRT"

inductive CastType where
  | text | integer | bigInt | numeric | double | boolean | date | timestamp | json | uuid
  deriving DecidableEq, Repr

def CastType.display : CastType → String
  | .text => "text"
  | .integer => "integer"
  | .bigInt => "bigint"
  | .numeric => "numeric"
  | .double => "double"
  | .boolean => "boolean"
  | .date => "date"
  | .timestamp => "timestamp"
  | .json => "json"
  | .uuid => "uuid"

/-- Operators between a field and a parameter: arithmetic, concatenation of text and the
    distances of vectors. -/
inductive BinaryOp where
  | add | sub | mul | div | mod | concat
  | l2Distance | cosineDistance | innerProduct
  deriving DecidableEq, Repr

namespace BinaryOp

def symbol : BinaryOp → String
  | .add => "+"
  | .sub => "-"
  | .mul => "*"
  | .div => "/"
  | .mod => "%"
  | .concat => "||"
  | .l2Distance => "<->"
  | .cosineDistance => "<=>"
  | .innerProduct => "<#>"

def isVector : BinaryOp → Bool
  | .l2Distance | .cosineDistance | .innerProduct => true
  | _ => false

end BinaryOp

inductive WindowFunction where
  | rowNumber | rank | denseRank | ntile | lag | lead | firstValue | lastValue
  | aggregate (kind : AggregateKind)
  deriving DecidableEq, Repr

def WindowFunction.display : WindowFunction → String
  | .rowNumber => "ROW_NUMBER"
  | .rank => "RANK"
  | .denseRank => "DENSE_RANK"
  | .ntile => "NTILE"
  | .lag => "LAG"
  | .lead => "LEAD"
  | .firstValue => "FIRST_VALUE"
  | .lastValue => "LAST_VALUE"
  | .aggregate kind => kind.display

inductive FrameUnits where
  | rows | range
  deriving DecidableEq, Repr

/-- An end of a window frame, as a distance from the current row. -/
inductive FrameBound where
  | unboundedPreceding
  | preceding (rows : UInt64)
  | currentRow
  | following (rows : UInt64)
  | unboundedFollowing
  deriving DecidableEq, Repr

/-- The order of the kinds of bounds, from the first row to the last. -/
def FrameBound.rank : FrameBound → Nat
  | .unboundedPreceding => 0
  | .preceding _ => 1
  | .currentRow => 2
  | .following _ => 3
  | .unboundedFollowing => 4

/-- The rows around the current one that a window function sees. -/
structure Frame where
  units : FrameUnits
  start : FrameBound
  stop : Option FrameBound := none
  deriving DecidableEq, Repr

def Frame.rows (start stop : FrameBound) : Frame := ⟨.rows, start, some stop⟩

def Frame.range (start stop : FrameBound) : Frame := ⟨.range, start, some stop⟩

end TypedSql
