import TypedSql.Dialect.Capability

namespace TypedSql

inductive Clause where
  | tableAlias | distinct | distinctOn | projection | join | filter | groupBy | having
  | orderBy | limit | offset | lock | values | set | returning | onConflict
  deriving DecidableEq, Repr

namespace Clause

def all : List Clause :=
  [.tableAlias, .distinct, .distinctOn, .projection, .join, .filter, .groupBy, .having,
    .orderBy, .limit, .offset, .lock, .values, .set, .returning, .onConflict]

def display : Clause → String
  | .tableAlias => "table alias"
  | .distinct => "DISTINCT"
  | .distinctOn => "DISTINCT ON"
  | .projection => "projection"
  | .join => "JOIN"
  | .filter => "WHERE"
  | .groupBy => "GROUP BY"
  | .having => "HAVING"
  | .orderBy => "ORDER BY"
  | .limit => "LIMIT"
  | .offset => "OFFSET"
  | .lock => "lock"
  | .values => "VALUES"
  | .set => "SET"
  | .returning => "RETURNING"
  | .onConflict => "ON CONFLICT"

end Clause

inductive Comparison where
  | simple | fields | subquery | aggregate | expression
  deriving DecidableEq, Repr

def Comparison.display : Comparison → String
  | .simple => "simple condition"
  | .fields => "field comparison"
  | .subquery => "subquery condition"
  | .aggregate => "aggregate condition"
  | .expression => "expression condition"

inductive Missing where
  | pathSegment | caseBranch | coalesceOperands | aggregateField | exponent
  | bucketCount | shiftedField | edgeField | windowAggregateField
  | conditionParam | subqueryField | secondOperand
  | valueRow | insertColumn | assignment
  | conflictTarget | conflictAssignment | duplicateKeyAssignment
  deriving DecidableEq, Repr

def Missing.text : Missing → String
  | .pathSegment => "JSON path requires at least one segment"
  | .caseBranch => "CASE requires at least one WHEN branch"
  | .coalesceOperands => "COALESCE requires at least two operands"
  | .aggregateField => "aggregate requires a field"
  | .exponent => "POWER requires an exponent"
  | .bucketCount => "NTILE requires a bucket count"
  | .shiftedField => "LAG/LEAD requires a field"
  | .edgeField => "FIRST_VALUE/LAST_VALUE requires a field"
  | .windowAggregateField => "window aggregate requires a field"
  | .conditionParam => "condition requires a parameter"
  | .subqueryField => "subquery condition requires a field"
  | .secondOperand => "compound query requires a second operand"
  | .valueRow => "INSERT requires at least one value row"
  | .insertColumn => "INSERT requires at least one column"
  | .assignment => "UPDATE requires at least one assignment"
  | .conflictTarget => "ON CONFLICT DO UPDATE requires a conflict target"
  | .conflictAssignment => "ON CONFLICT DO UPDATE requires an assignment"
  | .duplicateKeyAssignment => "ON DUPLICATE KEY UPDATE requires an assignment"

inductive Unexpected where
  | mathArgument | bucketCount | shift | rankingField | bucketField
  | nullParam | existsField | conflictTarget
  deriving DecidableEq, Repr

def Unexpected.text : Unexpected → String
  | .mathArgument => "math function does not accept an argument"
  | .bucketCount => "window function does not accept a bucket count"
  | .shift => "window function does not accept an offset or default"
  | .rankingField => "ranking function does not accept a field"
  | .bucketField => "NTILE does not accept a field"
  | .nullParam => "IS [NOT] NULL does not accept a parameter"
  | .existsField => "EXISTS does not accept a field"
  | .conflictTarget => "ON CONFLICT target does not accept a qualified or JSON field"

inductive BadAssignment where
  | target | aggregate | window
  deriving DecidableEq, Repr

def BadAssignment.text : BadAssignment → String
  | .target => "SET targets must be plain columns"
  | .aggregate => "aggregates cannot be assigned"
  | .window => "window functions cannot be assigned"

inductive FrameFault where
  | startsAtEnd | openEnd | endsAtStart | inverted
  deriving DecidableEq, Repr

def FrameFault.text : FrameFault → String
  | .startsAtEnd => "frame cannot start at UNBOUNDED FOLLOWING"
  | .openEnd => "a frame without an end must start at or before CURRENT ROW"
  | .endsAtStart => "frame cannot end at UNBOUNDED PRECEDING"
  | .inverted => "frame ends before it starts"

inductive OperandFault where
  | notSelect | ordered | paginated | locking
  deriving DecidableEq, Repr

def OperandFault.text : OperandFault → String
  | .notSelect => "operands must be SELECT queries"
  | .ordered => "ORDER BY belongs to the compound query"
  | .paginated => "LIMIT/OFFSET belong to the compound query"
  | .locking => "operands cannot lock rows"

/-- Why a tree cannot be rendered. -/
inductive RenderError where
  | depthExceeded (depth max : Nat)
  | missingOperand (what : Missing)
  | unexpectedOperand (what : Unexpected)
  | unsupported (dialect : Dialect) (feature : Feature)
  | clauseNotAllowed (operation : Operation) (clause : Clause)
  | invalidOperator (op : Operator) (comparison : Comparison)
  | havingWithoutGroupBy
  | conflictingDistinct
  | rowShapeMismatch (row : Nat)
  | duplicateAssignment (field : String)
  | aggregateOutsideHaving
  | invalidAssignment (fault : BadAssignment)
  | invalidFrame (fault : FrameFault)
  | emptyConditionGroup
  | invalidJoin (kind : JoinKind) (table : String)
  | invalidSubquery (operation : Operation)
  | invalidCompoundOperand (index : Nat) (fault : OperandFault)
  deriving DecidableEq, Repr

def RenderError.message : RenderError → String
  | .depthExceeded depth max =>
    "Subquery depth " ++ toString depth ++ " exceeds the maximum of " ++ toString max
  | .missingOperand what => what.text
  | .unexpectedOperand what => what.text
  | .unsupported dialect feature => feature.text ++ " is not supported by " ++ dialect.display
  | .clauseNotAllowed operation clause =>
    clause.display ++ " is not allowed in a " ++ operation.display ++ " statement"
  | .invalidOperator op comparison =>
    "Operator " ++ op.symbol ++ " cannot be used in " ++ comparison.display
  | .havingWithoutGroupBy => "HAVING requires GROUP BY"
  | .conflictingDistinct => "DISTINCT and DISTINCT ON cannot be combined"
  | .rowShapeMismatch row =>
    "INSERT row " ++ toString row ++ " does not have the same fields as the first row"
  | .duplicateAssignment field => "Field '" ++ field ++ "' is assigned more than once"
  | .aggregateOutsideHaving => "Aggregate conditions are only allowed in HAVING"
  | .invalidAssignment fault => fault.text ++ " cannot be used as an assignment value"
  | .invalidFrame fault => "Invalid window frame: " ++ fault.text
  | .emptyConditionGroup => "Condition group is empty"
  | .invalidJoin kind table =>
    kind.keyword ++ " JOIN on '" ++ table ++ "' has an invalid ON clause"
  | .invalidSubquery operation =>
    "Subquery must be a SELECT or COUNT, found " ++ operation.display
  | .invalidCompoundOperand index fault =>
    "Compound operand " ++ toString index ++ " is invalid: " ++ fault.text

end TypedSql
