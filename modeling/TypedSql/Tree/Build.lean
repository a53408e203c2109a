import TypedSql.Tree.Basic

namespace TypedSql

inductive ConditionKind where
  | simple | fields | subquery | aggregate | expression
  deriving DecidableEq, Repr

def ConditionKind.phrase : ConditionKind → String
  | .simple => "a parameter comparison"
  | .fields => "a field comparison"
  | .subquery => "a subquery condition"
  | .aggregate => "an aggregate condition"
  | .expression => "an expression condition"

inductive ColumnUse where
  | insert | conflict | assignment
  deriving DecidableEq, Repr

def ColumnUse.reason : ColumnUse → String
  | .insert => "insert columns cannot be qualified or JSON paths"
  | .conflict => "conflict updates cannot be qualified or JSON paths"
  | .assignment => "assignment targets cannot be qualified or JSON paths"

inductive BuildError where
  | missingJoinCondition (kind : JoinKind)
  | unexpectedJoinCondition
  | duplicateAssignment (field : String)
  | invalidOperator (op : Operator) (kind : ConditionKind)
  | missingOperands
  | missingSubqueryField
  | missingAggregateField
  | unexpectedExistsField
  | invalidColumn (field : String) (use : ColumnUse)
  deriving DecidableEq, Repr

def BuildError.message : BuildError → String
  | .missingJoinCondition kind => kind.keyword ++ " JOIN requires an ON condition"
  | .unexpectedJoinCondition => "CROSS JOIN cannot have an ON condition"
  | .duplicateAssignment field => "Field '" ++ field ++ "' is assigned more than once"
  | .invalidOperator op kind =>
    "Operator " ++ op.symbol ++ " cannot be used in " ++ kind.phrase
  | .missingOperands => "COALESCE requires at least two operands"
  | .missingSubqueryField => "subquery comparison requires a field"
  | .missingAggregateField => "aggregate condition requires a field"
  | .unexpectedExistsField => "EXISTS subquery does not accept a field"
  | .invalidColumn field use => "Field '" ++ field ++ "' cannot be written: " ++ use.reason

namespace Condition

def compare (field : Field) (op : Operator) (param : Param) : Condition :=
  .simple field op (some param)

def newSimple (field : Field) (op : Operator) (param : Param) : Except BuildError Condition :=
  if op.takesParam then .ok (compare field op param) else .error (.invalidOperator op .simple)

def isNull (field : Field) : Condition := .simple field .isNull none

def isNotNull (field : Field) : Condition := .simple field .isNotNull none

def allOf (items : List Condition) : Condition := .group .and items

def anyOf (items : List Condition) : Condition := .group .or items

def newFieldComparison (left : Field) (op : Operator) (right : Field) :
    Except BuildError Condition :=
  if op.isComparison || op.isPattern then .ok (.fieldComparison left op right)
  else .error (.invalidOperator op .fields)

/-- Membership and comparisons need a field; existence has no place for one. -/
def newSubquery (field : Option Field) (op : Operator) (query : Query) :
    Except BuildError Condition :=
  if op.isExistence then
    if field.isSome then .error .unexpectedExistsField else .ok (.subquery field op query)
  else if op.isMembership || op.isComparison then
    if field.isNone then .error .missingSubqueryField else .ok (.subquery field op query)
  else .error (.invalidOperator op .subquery)

def inSubquery (field : Field) (query : Query) : Condition := .subquery (some field) .isIn query

def notInSubquery (field : Field) (query : Query) : Condition :=
  .subquery (some field) .notIn query

def existsIn (query : Query) : Condition := .subquery none .exists query

def notExistsIn (query : Query) : Condition := .subquery none .notExists query

def notBetween (field : Field) (low high : Param) : Condition := .between field low high true

/-- Only a count goes without a field. -/
def newAggregate (kind : AggregateKind) (field : Option Field) (op : Operator) (param : Param) :
    Except BuildError Condition :=
  if !op.isComparison then .error (.invalidOperator op .aggregate)
  else if field.isNone && kind ≠ .count then .error .missingAggregateField
  else .ok (.aggregate kind field op param)

def newExpression (expr : Expr) (op : Operator) (param : Param) :
    Except BuildError Condition :=
  if op.isComparison || op.isPattern then .ok (.expression expr op param)
  else .error (.invalidOperator op .expression)

/-- Adds a condition. One that is a conjunction already takes it as a further member. -/
def andAlso (condition other : Condition) : Condition :=
  match condition with
  | .group .and items => allOf (items ++ [other])
  | first => allOf [first, other]

end Condition

namespace AggregateCall

def new (kind : AggregateKind) (field : Option Field) : AggregateCall := ⟨kind, field, none⟩

def filtered (call : AggregateCall) (condition : Condition) : AggregateCall :=
  { call with filter := some condition }

end AggregateCall

namespace CaseExpr

def start (condition : Condition) (result : Param) : CaseExpr := ⟨[⟨condition, result⟩], none⟩

def andWhen (cases : CaseExpr) (condition : Condition) (result : Param) : CaseExpr :=
  { cases with whens := cases.whens ++ [⟨condition, result⟩] }

def orElse (cases : CaseExpr) (param : Param) : CaseExpr :=
  { cases with otherwise := some param }

end CaseExpr

namespace MathCall

def new (function : MathFunction) (field : Field) : MathCall := ⟨function, field, none⟩

def round (field : Field) (precision : Option Param) : MathCall := ⟨.round, field, precision⟩

def power (field : Field) (exponent : Param) : MathCall := ⟨.power, field, some exponent⟩

end MathCall

namespace FieldExpr

def new (expr : Expr) : FieldExpr := ⟨expr, none⟩

def aliased (expr : Expr) (output : Alias) : FieldExpr := ⟨expr, some output⟩

end FieldExpr

namespace Expr

def aggregateOf (kind : AggregateKind) (field : Option Field) : Expr :=
  .aggregate (.new kind field)

def newCoalesce (operands : List Operand) : Except BuildError Expr :=
  if operands.length < 2 then .error .missingOperands else .ok (.coalesce operands)

def aliased (expr : Expr) (name : String) : Except NameError FieldExpr :=
  (Alias.new name).map fun output => ⟨expr, some output⟩

end Expr

def CaseExpr.aliased (cases : CaseExpr) (name : String) : Except NameError FieldExpr :=
  (Expr.case cases).aliased name

namespace OrderBy

def ascending (expr : Expr) : OrderBy := ⟨expr, .asc, none⟩

def descending (expr : Expr) : OrderBy := ⟨expr, .desc, none⟩

def withNulls (item : OrderBy) (nulls : NullsPlacement) : OrderBy :=
  { item with nulls := some nulls }

end OrderBy

namespace WindowSpec

def new : WindowSpec := ⟨[], [], none⟩

def addPartition (spec : WindowSpec) (field : Field) : WindowSpec :=
  { spec with partitionBy := spec.partitionBy ++ [field] }

def addOrder (spec : WindowSpec) (item : OrderBy) : WindowSpec :=
  { spec with orderBy := spec.orderBy ++ [item] }

def withFrame (spec : WindowSpec) (frame : Frame) : WindowSpec :=
  { spec with frame := some frame }

end WindowSpec

namespace WindowCall

def new (function : WindowFunction) (window : WindowSpec) : WindowCall :=
  ⟨function, none, none, none, none, window⟩

def withField (call : WindowCall) (field : Field) : WindowCall :=
  { call with field := some field }

def ntile (bucket : Param) (window : WindowSpec) : WindowCall :=
  { new .ntile window with bucket := some bucket }

def lag (field : Field) (window : WindowSpec) : WindowCall := (new .lag window).withField field

def lead (field : Field) (window : WindowSpec) : WindowCall := (new .lead window).withField field

def aggregate (kind : AggregateKind) (field : Option Field) (window : WindowSpec) : WindowCall :=
  { new (.aggregate kind) window with field }

def withOffset (call : WindowCall) (offset : Param) : WindowCall :=
  { call with offset := some offset }

def withFallback (call : WindowCall) (fallback : Param) : WindowCall :=
  { call with fallback := some fallback }

end WindowCall

namespace Join

/-- A cross join has no condition; any other join has one. -/
def new (kind : JoinKind) (table : Table) (on : Option Condition) : Except BuildError Join :=
  match kind.requiresCondition, on with
  | true, none => .error (.missingJoinCondition kind)
  | false, some _ => .error .unexpectedJoinCondition
  | _, on => .ok ⟨kind, table, on⟩

def withCondition (kind : JoinKind) (table : Table) (on : Condition) : Join :=
  ⟨kind, table, some on⟩

def cross (table : Table) : Join := ⟨.cross, table, none⟩

end Join

/-- Adds a column; columns are plain, and each is given once. -/
def Row.value (row : Row) (field : Field) (param : Param) : Except BuildError Row :=
  if !field.isPlain then .error (.invalidColumn field.name .insert)
  else if row.contains field.name then .error (.duplicateAssignment field.name)
  else .ok (row.insert field.name param)

namespace OnConflict

def doNothing (target : List Field) : OnConflict := ⟨target, .doNothing⟩

def doUpdate (target : List Field) : OnConflict := ⟨target, .doUpdate .empty⟩

def updates (conflict : OnConflict) : NameMap ConflictValue :=
  match conflict.action with
  | .doNothing => .empty
  | .doUpdate updates => updates

/-- Adds a column to the update; doing nothing becomes an update thereby. -/
def set (conflict : OnConflict) (field : Field) (value : ConflictValue) :
    Except BuildError OnConflict :=
  if !field.isPlain then .error (.invalidColumn field.name .conflict)
  else if conflict.updates.contains field.name then .error (.duplicateAssignment field.name)
  else .ok { conflict with action := .doUpdate (conflict.updates.insert field.name value) }

end OnConflict

namespace Query

def new (operation : Operation) (table : Table) : Query := { operation, table }

def addFields (q : Query) (fields : List FieldExpr) : Query :=
  { q with fields := q.fields ++ fields }

def addField (q : Query) (field : FieldExpr) : Query := q.addFields [field]

def makeDistinct (q : Query) : Query := { q with distinct := true }

def withDistinctOn (q : Query) (fields : List Field) : Query := { q with distinctOn := fields }

def addJoin (q : Query) (join : Join) : Query := { q with joins := q.joins ++ [join] }

def conjoin (present : Option Condition) (condition : Condition) : Condition :=
  match present with
  | some present => present.andAlso condition
  | none => condition

def addFilter (q : Query) (condition : Condition) : Query :=
  { q with filter := some (conjoin q.filter condition) }

def addHaving (q : Query) (condition : Condition) : Query :=
  { q with having := some (conjoin q.having condition) }

def withGroupBy (q : Query) (fields : List Field) : Query := { q with groupBy := fields }

def addOrder (q : Query) (item : OrderBy) : Query := { q with orderBy := q.orderBy ++ [item] }

def withLimit (q : Query) (n : UInt64) : Query := { q with limit := some n }

def withOffset (q : Query) (n : UInt64) : Query := { q with offset := some n }

def withLock (q : Query) (lock : RowLock) : Query := { q with lock := some lock }

def addRow (q : Query) (row : Row) : Query := { q with rows := q.rows ++ [row] }

/-- Adds an assignment; each column is plain and assigned once. -/
def set (q : Query) (field : Field) (value : AssignValue) : Except BuildError Query :=
  if !field.isPlain then .error (.invalidColumn field.name .assignment)
  else if q.assignments.any fun a => a.field.name == field.name then
    .error (.duplicateAssignment field.name)
  else .ok { q with assignments := q.assignments ++ [⟨field, value⟩] }

def withReturning (q : Query) (fields : List Field) : Query := { q with returning := fields }

def withOnConflict (q : Query) (conflict : OnConflict) : Query :=
  { q with onConflict := some conflict }

end Query

namespace CompoundQuery

def new (base : Query) : CompoundQuery := { base }

def push (compound : CompoundQuery) (op : SetOperation) (query : Query) : CompoundQuery :=
  { compound with parts := compound.parts ++ [⟨op, query⟩] }

def addOrder (compound : CompoundQuery) (item : OrderBy) : CompoundQuery :=
  { compound with orderBy := compound.orderBy ++ [item] }

def withLimit (compound : CompoundQuery) (n : UInt64) : CompoundQuery :=
  { compound with limit := some n }

def withOffset (compound : CompoundQuery) (n : UInt64) : CompoundQuery :=
  { compound with offset := some n }

end CompoundQuery

end TypedSql
