import TypedSql.Document.Tag
import TypedSql.Tree.Basic

namespace TypedSql

open Json (Reading)
open Members (required optional defaulted)

def Param.decode : Decoder Param := .gated Param.new

def JsonKey.decode : Decoder JsonKey := .gated JsonKey.new

def Alias.decode : Decoder Alias := .gated Alias.ofWord

def TableAlias.decode : Decoder TableAlias := fun s => do
  (TableAlias.new (← Decoder.char s)).mapError .name

def Table.decode : Decoder Table := .object <|
  Table.mk <$> required "name" .string <*> optional "alias" TableAlias.decode

def Qualifier.decode : Decoder Qualifier := .choice [
  .carrying "table" fun s => (Decoder.string s).map .table,
  .carrying "alias" fun s => (TableAlias.decode s).map .letter]

def PathSegment.decode : Decoder PathSegment := .choice [
  .carrying "key" fun s => (JsonKey.decode s).map .key,
  .carrying "index" fun s => (Decoder.uint32 s).map .index]

def JsonPath.decode : Decoder JsonPath := .object <|
  JsonPath.mk <$> required "segments" (.list PathSegment.decode)
    <*> defaulted "as_text" false .bool

def Field.decode : Decoder Field := .object <|
  Field.mk <$> required "name" .string <*> optional "qualifier" Qualifier.decode
    <*> optional "json" JsonPath.decode

def Operand.decode : Decoder Operand := .choice [
  .carrying "field" fun s => (Field.decode s).map .field,
  .carrying "param" fun s => (Param.decode s).map .param]

def Operand.decodePair : Decoder (Operand × Operand) := fun s =>
  match s.reading with
  | .list (left :: more) => do
    let left ← Operand.decode { s with reading := left }
    match more with
    | [] => .error .wrongForm
    | right :: more =>
      let right ← Operand.decode { s with reading := right }
      if more.isEmpty then .ok (left, right) else .error s.misshapen
  | _ => .error s.mismatch

def MathCall.decode : Decoder MathCall := .object <|
  MathCall.mk <$> required "func" Tagged.decode <*> required "field" Field.decode
    <*> optional "arg" Param.decode

def FrameBound.decode : Decoder FrameBound := .choice [
  .plain "unbounded_preceding" .unboundedPreceding,
  .carrying "preceding" fun s => (Decoder.uint64 s).map .preceding,
  .plain "current_row" .currentRow,
  .carrying "following" fun s => (Decoder.uint64 s).map .following,
  .plain "unbounded_following" .unboundedFollowing]

def Frame.decode : Decoder Frame := .object <|
  Frame.mk <$> required "units" Tagged.decode <*> required "start" FrameBound.decode
    <*> optional "end" FrameBound.decode

def WindowFunction.decode : Decoder WindowFunction := .choice [
  .plain "row_number" .rowNumber,
  .plain "rank" .rank,
  .plain "dense_rank" .denseRank,
  .plain "ntile" .ntile,
  .plain "lag" .lag,
  .plain "lead" .lead,
  .plain "first_value" .firstValue,
  .plain "last_value" .lastValue,
  .carrying "aggregate" fun s => (Tagged.decode s).map .aggregate]

def RowLock.decode : Decoder RowLock := .object <|
  RowLock.mk <$> required "strength" Tagged.decode <*> defaulted "wait" .wait Tagged.decode

def Row.decode : Decoder Row := .nameMap Param.decode

def ConflictValue.decode : Decoder ConflictValue := .choice [
  .carrying "param" fun s => (Param.decode s).map .param,
  .plain "excluded" .excluded]

def ConflictAction.decode : Decoder ConflictAction := .choice [
  .plain "do_nothing" .doNothing,
  .carrying "do_update" fun s => (Decoder.nameMap ConflictValue.decode s).map .doUpdate]

def OnConflict.decode : Decoder OnConflict := .object <|
  OnConflict.mk <$> defaulted "target" [] (.list Field.decode)
    <*> required "action" ConflictAction.decode

/-- Decoders of the parts of a tree that contain one another. -/
structure TreeDecoders where
  expr : Decoder Expr
  condition : Decoder Condition
  query : Decoder Query

namespace TreeDecoders
variable (d : TreeDecoders)

def whenClause : Decoder WhenClause := .object <|
  WhenClause.mk <$> required "condition" d.condition <*> required "then" Param.decode

def caseExpr : Decoder CaseExpr := .object <|
  CaseExpr.mk <$> required "whens" (.list d.whenClause) <*> optional "otherwise" Param.decode

def aggregateCall : Decoder AggregateCall := .object <|
  AggregateCall.mk <$> required "kind" Tagged.decode <*> optional "field" Field.decode
    <*> optional "filter" d.condition

def orderBy : Decoder OrderBy := .object <|
  OrderBy.mk <$> required "expr" d.expr <*> defaulted "direction" .asc Tagged.decode
    <*> optional "nulls" Tagged.decode

def windowSpec : Decoder WindowSpec := .object <|
  WindowSpec.mk <$> defaulted "partition_by" [] (.list Field.decode)
    <*> defaulted "order_by" [] (.list d.orderBy) <*> optional "frame" Frame.decode

def windowCall : Decoder WindowCall := .object <|
  WindowCall.mk <$> required "func" WindowFunction.decode <*> optional "field" Field.decode
    <*> optional "bucket" Param.decode <*> optional "offset" Param.decode
    <*> optional "default" Param.decode <*> defaulted "over" ⟨[], [], none⟩ d.windowSpec

def fieldExpr : Decoder FieldExpr := .object <|
  FieldExpr.mk <$> required "expr" d.expr <*> optional "alias" Alias.decode

def join : Decoder Join := .object <|
  Join.mk <$> required "kind" Tagged.decode <*> required "table" Table.decode
    <*> optional "on" d.condition

def assignValue : Decoder AssignValue := .choice [
  .carrying "param" fun s => (Param.decode s).map .param,
  .carrying "expr" fun s => (d.expr s).map .expr]

def assignment : Decoder Assignment := .object <|
  Assignment.mk <$> required "field" Field.decode <*> required "value" d.assignValue

def castExpr : Decoder Expr := .object <|
  Expr.cast <$> required "field" Field.decode <*> required "to" Tagged.decode

def binaryExpr : Decoder Expr := .object <|
  Expr.binary <$> required "field" Field.decode <*> required "op" Tagged.decode
    <*> required "param" Param.decode

def exprStep : Decoder Expr := .choice [
  .carrying "field" fun s => (Field.decode s).map .field,
  .carrying "aggregate" fun s => (d.aggregateCall s).map .aggregate,
  .carrying "case" fun s => (d.caseExpr s).map .case,
  .carrying "coalesce" fun s => (Decoder.list Operand.decode s).map .coalesce,
  .carrying "null_if" fun s => (Operand.decodePair s).map fun (left, right) => .nullIf left right,
  .carrying "math" fun s => (MathCall.decode s).map .math,
  .carrying "cast" castExpr,
  .carrying "window" fun s => (d.windowCall s).map .window,
  .carrying "binary" binaryExpr]

def conditionTypes : List (String × Members Condition) := [
  ("simple",
    Condition.simple <$> required "field" Field.decode <*> required "op" Tagged.decode
      <*> optional "param" Param.decode),
  ("group",
    Condition.group <$> required "op" Tagged.decode <*> required "items" (.list d.condition)),
  ("field_comparison",
    Condition.fieldComparison <$> required "left" Field.decode <*> required "op" Tagged.decode
      <*> required "right" Field.decode),
  ("subquery",
    Condition.subquery <$> optional "field" Field.decode <*> required "op" Tagged.decode
      <*> required "query" d.query),
  ("between",
    Condition.between <$> required "field" Field.decode <*> required "low" Param.decode
      <*> required "high" Param.decode <*> defaulted "negated" false .bool),
  ("aggregate",
    Condition.aggregate <$> required "kind" Tagged.decode <*> optional "field" Field.decode
      <*> required "op" Tagged.decode <*> required "param" Param.decode),
  ("expression",
    Condition.expression <$> required "expr" d.expr <*> required "op" Tagged.decode
      <*> required "param" Param.decode)]

/-- The members that the type of a condition stands for. A held condition may give the number
    of its type for the name. -/
def conditionType : Decoder (Members Condition) := fun s =>
  match s.reading, s.isHeld with
  | .text name, _ => (d.conditionTypes.lookup name).elim (.error .wrongForm) .ok
  | .nat n, true => (d.conditionTypes[n]?).elim (.error .wrongForm) fun e => .ok e.2
  | _, _ => .error s.mismatch

/-- A condition tells its type by a member that may stand anywhere, so all of it is read, and
    held from then on, before any other member is looked at. In a list the type stands first. -/
def conditionStep : Decoder Condition
  | ⟨.object entries, isHeld⟩ => do
    let members ← Decoder.members Reading.isClean (required "type" d.conditionType) isHeld entries
    Decoder.object members ⟨.object entries, true⟩
  | ⟨.list (type :: items), isHeld⟩ => do
    let members ← d.conditionType ⟨type, isHeld⟩
    if items.all Reading.isClean then Decoder.object members ⟨.list items, true⟩
    else .error .notJson
  | s => .error s.mismatch

def queryStep : Decoder Query := .object <|
  Query.mk <$> required "operation" Tagged.decode <*> required "table" Table.decode
    <*> defaulted "distinct" false .bool <*> defaulted "distinct_on" [] (.list Field.decode)
    <*> defaulted "fields" [] (.list d.fieldExpr) <*> defaulted "joins" [] (.list d.join)
    <*> optional "filter" d.condition <*> defaulted "group_by" [] (.list Field.decode)
    <*> optional "having" d.condition <*> defaulted "order_by" [] (.list d.orderBy)
    <*> optional "limit" .uint64 <*> optional "offset" .uint64
    <*> optional "lock" RowLock.decode <*> defaulted "rows" [] (.list Row.decode)
    <*> defaulted "assignments" [] (.list d.assignment)
    <*> defaulted "returning" [] (.list Field.decode)
    <*> optional "on_conflict" OnConflict.decode

/-- Decoders for documents of that depth: what is contained is less deep. -/
def ofDepth : Nat → TreeDecoders
  | 0 => ⟨fun _ => .error .wrongForm, fun _ => .error .wrongForm, fun _ => .error .wrongForm⟩
  | n + 1 =>
    let contained := ofDepth n
    ⟨contained.exprStep, contained.conditionStep, contained.queryStep⟩

def decoding {α : Type} (decoder : TreeDecoders → Decoder α) : Decoder α := fun s =>
  decoder (ofDepth (s.reading.depth + 1)) s

end TreeDecoders

open TreeDecoders (decoding)

def Expr.decode : Decoder Expr := decoding (·.expr)
def Condition.decode : Decoder Condition := decoding (·.condition)
def Query.decode : Decoder Query := decoding (·.query)
def CaseExpr.decode : Decoder CaseExpr := decoding TreeDecoders.caseExpr
def AggregateCall.decode : Decoder AggregateCall := decoding TreeDecoders.aggregateCall
def OrderBy.decode : Decoder OrderBy := decoding TreeDecoders.orderBy
def WindowSpec.decode : Decoder WindowSpec := decoding TreeDecoders.windowSpec
def WindowCall.decode : Decoder WindowCall := decoding TreeDecoders.windowCall
def FieldExpr.decode : Decoder FieldExpr := decoding TreeDecoders.fieldExpr
def Join.decode : Decoder Join := decoding TreeDecoders.join
def AssignValue.decode : Decoder AssignValue := decoding TreeDecoders.assignValue
def Assignment.decode : Decoder Assignment := decoding TreeDecoders.assignment

def CompoundPart.decode : Decoder CompoundPart := .object <|
  CompoundPart.mk <$> required "op" Tagged.decode <*> required "query" Query.decode

def CompoundQuery.decode : Decoder CompoundQuery := .object <|
  CompoundQuery.mk <$> required "base" Query.decode
    <*> defaulted "parts" [] (.list CompoundPart.decode)
    <*> defaulted "order_by" [] (.list OrderBy.decode)
    <*> optional "limit" .uint64 <*> optional "offset" .uint64

def Statement.decode : Decoder Statement := .choice [
  .carrying "query" fun s => (Query.decode s).map .query,
  .carrying "compound" fun s => (CompoundQuery.decode s).map .compound]

def RenderOptions.decode : Decoder RenderOptions := .object <|
  RenderOptions.mk <$> defaulted "dialect" .postgres Tagged.decode
    <*> defaulted "max_subquery_depth" 3 .uint64 <*> defaulted "placeholders" .named Tagged.decode

end TypedSql
