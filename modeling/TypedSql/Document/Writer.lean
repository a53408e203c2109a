import TypedSql.Document.Tag
import TypedSql.Tree.Basic

namespace TypedSql

def Json.member? (key : String) : Option Json → List (String × Json)
  | some value => [(key, value)]
  | none => []

def Json.tagged (tag : String) (content : Json) : Json := .obj [(tag, content)]

def Json.ofUInt64 (n : UInt64) : Json := .nat n.toNat

def Param.toJson (p : Param) : Json := .str p.name

def TableAlias.toJson (a : TableAlias) : Json := .str a.display

def Alias.toJson (a : Alias) : Json := .str a.name

def Table.toJson (t : Table) : Json :=
  .obj ([("name", .str t.name)] ++ Json.member? "alias" (t.alias?.map TableAlias.toJson))

def Qualifier.toJson : Qualifier → Json
  | .table name => .tagged "table" (.str name)
  | .letter a => .tagged "alias" a.toJson

def PathSegment.toJson : PathSegment → Json
  | .key k => .tagged "key" (.str k.name)
  | .index i => .tagged "index" (.nat i.toNat)

def JsonPath.toJson (p : JsonPath) : Json :=
  .obj [("segments", .arr (p.segments.map PathSegment.toJson)), ("as_text", .bool p.asText)]

def Field.toJson (f : Field) : Json :=
  .obj ([("name", .str f.name)] ++ Json.member? "qualifier" (f.qualifier.map Qualifier.toJson)
    ++ Json.member? "json" (f.path.map JsonPath.toJson))

def fieldsToJson (fields : List Field) : Json := .arr (fields.map Field.toJson)

def Operand.toJson : Operand → Json
  | .field f => .tagged "field" f.toJson
  | .param p => .tagged "param" p.toJson

def MathCall.toJson (m : MathCall) : Json :=
  .obj ([("func", Tagged.toJson m.function), ("field", m.field.toJson)]
    ++ Json.member? "arg" (m.argument.map Param.toJson))

def FrameBound.toJson : FrameBound → Json
  | .unboundedPreceding => .str "unbounded_preceding"
  | .preceding n => .tagged "preceding" (.ofUInt64 n)
  | .currentRow => .str "current_row"
  | .following n => .tagged "following" (.ofUInt64 n)
  | .unboundedFollowing => .str "unbounded_following"

def Frame.toJson (f : Frame) : Json :=
  .obj ([("units", Tagged.toJson f.units), ("start", f.start.toJson)]
    ++ Json.member? "end" (f.stop.map FrameBound.toJson))

def WindowFunction.toJson : WindowFunction → Json
  | .rowNumber => .str "row_number"
  | .rank => .str "rank"
  | .denseRank => .str "dense_rank"
  | .ntile => .str "ntile"
  | .lag => .str "lag"
  | .lead => .str "lead"
  | .firstValue => .str "first_value"
  | .lastValue => .str "last_value"
  | .aggregate kind => .tagged "aggregate" (Tagged.toJson kind)

def RowLock.toJson (l : RowLock) : Json :=
  .obj [("strength", Tagged.toJson l.strength), ("wait", Tagged.toJson l.wait)]

def NameMap.toJson {α : Type} (write : α → Json) (m : NameMap α) : Json :=
  .obj (m.entries.map fun e => (e.1, write e.2))

def Row.toJson (r : Row) : Json := NameMap.toJson Param.toJson r

def ConflictValue.toJson : ConflictValue → Json
  | .param p => .tagged "param" p.toJson
  | .excluded => .str "excluded"

def ConflictAction.toJson : ConflictAction → Json
  | .doNothing => .str "do_nothing"
  | .doUpdate updates => .tagged "do_update" (updates.toJson ConflictValue.toJson)

def OnConflict.toJson (o : OnConflict) : Json :=
  .obj [("target", fieldsToJson o.target), ("action", o.action.toJson)]

mutual

def Expr.toJson : Expr → Json
  | .field f => .tagged "field" f.toJson
  | .aggregate call => .tagged "aggregate" call.toJson
  | .case cases => .tagged "case" cases.toJson
  | .coalesce operands => .tagged "coalesce" (.arr (operands.map Operand.toJson))
  | .nullIf left right => .tagged "null_if" (.arr [left.toJson, right.toJson])
  | .math call => .tagged "math" call.toJson
  | .cast f type => .tagged "cast" (.obj [("field", f.toJson), ("to", Tagged.toJson type)])
  | .window call => .tagged "window" call.toJson
  | .binary f op param => .tagged "binary"
      (.obj [("field", f.toJson), ("op", Tagged.toJson op), ("param", param.toJson)])
termination_by structural e => e

def AggregateCall.toJson : AggregateCall → Json
  | ⟨kind, f, filter⟩ =>
    .obj ([("kind", Tagged.toJson kind)] ++ Json.member? "field" (f.map Field.toJson)
      ++ Json.member? "filter" (conditionToJson? filter))
termination_by structural call => call

def CaseExpr.toJson : CaseExpr → Json
  | ⟨whens, otherwise⟩ =>
    .obj ([("whens", .arr (whensToJson whens))]
      ++ Json.member? "otherwise" (otherwise.map Param.toJson))
termination_by structural cases => cases

def OrderBy.toJson : OrderBy → Json
  | ⟨expr, direction, nulls⟩ =>
    .obj ([("expr", expr.toJson), ("direction", Tagged.toJson direction)]
      ++ Json.member? "nulls" (nulls.map Tagged.toJson))
termination_by structural item => item

def WindowSpec.toJson : WindowSpec → Json
  | ⟨partitionBy, orderBy, frame⟩ =>
    .obj ([("partition_by", fieldsToJson partitionBy), ("order_by", .arr (orderToJson orderBy))]
      ++ Json.member? "frame" (frame.map Frame.toJson))
termination_by structural spec => spec

def WindowCall.toJson : WindowCall → Json
  | ⟨function, f, bucket, offset, fallback, window⟩ =>
    .obj ([("func", function.toJson)] ++ Json.member? "field" (f.map Field.toJson)
      ++ Json.member? "bucket" (bucket.map Param.toJson)
      ++ Json.member? "offset" (offset.map Param.toJson)
      ++ Json.member? "default" (fallback.map Param.toJson) ++ [("over", window.toJson)])
termination_by structural call => call

def Condition.toJson : Condition → Json
  | .simple f op param =>
    .obj ([("type", .str "simple"), ("field", f.toJson), ("op", Tagged.toJson op)]
      ++ Json.member? "param" (param.map Param.toJson))
  | .group op items =>
    .obj [("type", .str "group"), ("op", Tagged.toJson op),
      ("items", .arr (conditionsToJson items))]
  | .fieldComparison left op right =>
    .obj [("type", .str "field_comparison"), ("left", left.toJson), ("op", Tagged.toJson op),
      ("right", right.toJson)]
  | .subquery f op query =>
    .obj ([("type", .str "subquery")] ++ Json.member? "field" (f.map Field.toJson)
      ++ [("op", Tagged.toJson op), ("query", query.toJson)])
  | .between f low high negated =>
    .obj [("type", .str "between"), ("field", f.toJson), ("low", low.toJson),
      ("high", high.toJson), ("negated", .bool negated)]
  | .aggregate kind f op param =>
    .obj ([("type", .str "aggregate"), ("kind", Tagged.toJson kind)]
      ++ Json.member? "field" (f.map Field.toJson)
      ++ [("op", Tagged.toJson op), ("param", param.toJson)])
  | .expression expr op param =>
    .obj [("type", .str "expression"), ("expr", expr.toJson), ("op", Tagged.toJson op),
      ("param", param.toJson)]
termination_by structural condition => condition

def AssignValue.toJson : AssignValue → Json
  | .param p => .tagged "param" p.toJson
  | .expr e => .tagged "expr" e.toJson
termination_by structural value => value

def Query.toJson : Query → Json
  | ⟨operation, table, distinct, distinctOn, fields, joins, filter, groupBy, having, orderBy,
      limit, offset, lock, rows, assignments, returning, onConflict⟩ =>
    .obj [("operation", Tagged.toJson operation), ("table", table.toJson),
      ("distinct", .bool distinct), ("distinct_on", fieldsToJson distinctOn),
      ("fields", .arr (fieldExprsToJson fields)), ("joins", .arr (joinsToJson joins)),
      ("filter", (conditionToJson? filter).getD .null), ("group_by", fieldsToJson groupBy),
      ("having", (conditionToJson? having).getD .null), ("order_by", .arr (orderToJson orderBy)),
      ("limit", .ofOption .ofUInt64 limit), ("offset", .ofOption .ofUInt64 offset),
      ("lock", .ofOption RowLock.toJson lock), ("rows", .arr (rows.map Row.toJson)),
      ("assignments", .arr (assignmentsToJson assignments)),
      ("returning", fieldsToJson returning),
      ("on_conflict", .ofOption OnConflict.toJson onConflict)]
termination_by structural query => query

def conditionToJson? : Option Condition → Option Json
  | none => none
  | some condition => some condition.toJson
termination_by structural condition => condition

def conditionsToJson : List Condition → List Json
  | [] => []
  | condition :: rest => condition.toJson :: conditionsToJson rest
termination_by structural conditions => conditions

def whensToJson : List WhenClause → List Json
  | [] => []
  | ⟨condition, result⟩ :: rest =>
    .obj [("condition", condition.toJson), ("then", result.toJson)] :: whensToJson rest
termination_by structural whens => whens

def orderToJson : List OrderBy → List Json
  | [] => []
  | item :: rest => item.toJson :: orderToJson rest
termination_by structural items => items

def fieldExprsToJson : List FieldExpr → List Json
  | [] => []
  | ⟨expr, alias?⟩ :: rest =>
    .obj ([("expr", expr.toJson)] ++ Json.member? "alias" (alias?.map Alias.toJson))
      :: fieldExprsToJson rest
termination_by structural fields => fields

def joinsToJson : List Join → List Json
  | [] => []
  | ⟨kind, table, on⟩ :: rest =>
    .obj ([("kind", Tagged.toJson kind), ("table", table.toJson)]
      ++ Json.member? "on" (conditionToJson? on)) :: joinsToJson rest
termination_by structural joins => joins

def assignmentsToJson : List Assignment → List Json
  | [] => []
  | ⟨target, value⟩ :: rest =>
    .obj [("field", target.toJson), ("value", value.toJson)] :: assignmentsToJson rest
termination_by structural assignments => assignments

end

def FieldExpr.toJson (f : FieldExpr) : Json :=
  .obj ([("expr", f.expr.toJson)] ++ Json.member? "alias" (f.alias?.map Alias.toJson))

def Join.toJson (j : Join) : Json :=
  .obj ([("kind", Tagged.toJson j.kind), ("table", j.table.toJson)]
    ++ Json.member? "on" (j.on.map Condition.toJson))

def Assignment.toJson (a : Assignment) : Json :=
  .obj [("field", a.field.toJson), ("value", a.value.toJson)]

def CompoundPart.toJson (p : CompoundPart) : Json :=
  .obj [("op", Tagged.toJson p.op), ("query", p.query.toJson)]

def CompoundQuery.toJson (c : CompoundQuery) : Json :=
  .obj [("base", c.base.toJson), ("parts", .arr (c.parts.map CompoundPart.toJson)),
    ("order_by", .arr (orderToJson c.orderBy)), ("limit", .ofOption .ofUInt64 c.limit),
    ("offset", .ofOption .ofUInt64 c.offset)]

def Statement.toJson : Statement → Json
  | .query q => .tagged "query" q.toJson
  | .compound c => .tagged "compound" c.toJson

def RenderOptions.toJson (o : RenderOptions) : Json :=
  .obj [("dialect", Tagged.toJson o.dialect),
    ("max_subquery_depth", .ofUInt64 o.maxSubqueryDepth),
    ("placeholders", Tagged.toJson o.placeholders)]

end TypedSql
