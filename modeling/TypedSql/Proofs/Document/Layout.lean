import TypedSql.Json.Reading
import TypedSql.Proofs.Tree.Gated

namespace TypedSql

open Json (Reading)

inductive TreePart where
  | expr | condition | query

/-- What a document may hold, as far as it matters where gated names stand in it. A typed object
    tells its form by the member `type`. -/
inductive Layout where
  | plain
  | gated (g : Gate)
  | list (item : Layout)
  | map (entry : Layout)
  | object (members : List (String × Layout))
  | choice (variants : List (String × Layout))
  | typed (types : List (String × Layout))
  | tree (part : TreePart)

namespace Layout

def parameter : Layout := .gated .parameter

def table : Layout := .object [("name", .plain), ("alias", .gated .tableAlias)]

def qualifier : Layout := .choice [("table", .plain), ("alias", .gated .tableAlias)]

def segment : Layout := .choice [("key", .gated .jsonKey), ("index", .plain)]

def path : Layout := .object [("segments", .list segment), ("as_text", .plain)]

def field : Layout := .object [("name", .plain), ("qualifier", qualifier), ("json", path)]

def operand : Layout := .choice [("field", field), ("param", parameter)]

def mathCall : Layout := .object [("func", .plain), ("field", field), ("arg", parameter)]

def row : Layout := .map parameter

def conflictValue : Layout := .choice [("param", parameter)]

def conflictAction : Layout := .choice [("do_update", .map conflictValue)]

def onConflict : Layout := .object [("target", .list field), ("action", conflictAction)]

def whenClause : Layout := .object [("condition", .tree .condition), ("then", parameter)]

def caseExpr : Layout := .object [("whens", .list whenClause), ("otherwise", parameter)]

def aggregateCall : Layout :=
  .object [("kind", .plain), ("field", field), ("filter", .tree .condition)]

def orderBy : Layout := .object [("expr", .tree .expr), ("direction", .plain), ("nulls", .plain)]

def windowSpec : Layout :=
  .object [("partition_by", .list field), ("order_by", .list orderBy), ("frame", .plain)]

def windowCall : Layout :=
  .object [("func", .plain), ("field", field), ("bucket", parameter), ("offset", parameter),
    ("default", parameter), ("over", windowSpec)]

def fieldExpr : Layout := .object [("expr", .tree .expr), ("alias", .gated .outputAlias)]

def join : Layout := .object [("kind", .plain), ("table", table), ("on", .tree .condition)]

def assignValue : Layout := .choice [("param", parameter), ("expr", .tree .expr)]

def assignment : Layout := .object [("field", field), ("value", assignValue)]

def cast : Layout := .object [("field", field), ("to", .plain)]

def binary : Layout := .object [("field", field), ("op", .plain), ("param", parameter)]

def expr : Layout :=
  .choice [("field", field), ("aggregate", aggregateCall), ("case", caseExpr),
    ("coalesce", .list operand), ("null_if", .list operand), ("math", mathCall), ("cast", cast),
    ("window", windowCall), ("binary", binary)]

def conditionTypes : List (String × Layout) := [
  ("simple", .object [("field", field), ("op", .plain), ("param", parameter)]),
  ("group", .object [("op", .plain), ("items", .list (.tree .condition))]),
  ("field_comparison", .object [("left", field), ("op", .plain), ("right", field)]),
  ("subquery", .object [("field", field), ("op", .plain), ("query", .tree .query)]),
  ("between", .object [("field", field), ("low", parameter), ("high", parameter),
    ("negated", .plain)]),
  ("aggregate", .object [("kind", .plain), ("field", field), ("op", .plain), ("param", parameter)]),
  ("expression", .object [("expr", .tree .expr), ("op", .plain), ("param", parameter)])]

def condition : Layout := .typed conditionTypes

def query : Layout :=
  .object [("operation", .plain), ("table", table), ("distinct", .plain),
    ("distinct_on", .list field), ("fields", .list fieldExpr), ("joins", .list join),
    ("filter", .tree .condition), ("group_by", .list field), ("having", .tree .condition),
    ("order_by", .list orderBy), ("limit", .plain), ("offset", .plain), ("lock", .plain),
    ("rows", .list row), ("assignments", .list assignment), ("returning", .list field),
    ("on_conflict", onConflict)]

def compoundPart : Layout := .object [("op", .plain), ("query", .tree .query)]

def compound : Layout :=
  .object [("base", .tree .query), ("parts", .list compoundPart), ("order_by", .list orderBy),
    ("limit", .plain), ("offset", .plain)]

def statement : Layout := .choice [("query", .tree .query), ("compound", compound)]

def form? (types : List (String × Layout)) : Reading → Option Layout
  | .text name => types.lookup name
  | .nat n => (types[n]?).map Prod.snd
  | _ => none

end Layout

def TreePart.layout : TreePart → Layout
  | .expr => .expr
  | .condition => .condition
  | .query => .query

/-- Where a gated name stands in a document. An object may also be a list of the values of its
    members, a typed one after its type. -/
inductive Position : Layout → Reading → GatedName → Prop where
  | here {g name} : Position (.gated g) (.text name) (g, name)
  | item {layout items r n} (member : r ∈ items) (inner : Position layout r n) :
      Position (.list layout) (.list items) n
  | entry {layout entries key r n} (member : (key, r) ∈ entries) (inner : Position layout r n) :
      Position (.map layout) (.object entries) n
  | member {members entries name layout key r n} (asked : (name, layout) ∈ members)
      (member : (key, r) ∈ entries) (named : key.text? = some name) (inner : Position layout r n) :
      Position (.object members) (.object entries) n
  | value {members items name layout r n} (listed : ((name, layout), r) ∈ members.zip items)
      (inner : Position layout r n) : Position (.object members) (.list items) n
  | content {variants entries tag layout key r n} (known : variants.lookup tag = some layout)
      (member : (key, r) ∈ entries) (tagged : key.text? = some tag) (inner : Position layout r n) :
      Position (.choice variants) (.object entries) n
  | typed {types entries key type layout n} (member : (key, type) ∈ entries)
      (named : key.text? = some "type") (form : Layout.form? types type = some layout)
      (inner : Position layout (.object entries) n) :
      Position (.typed types) (.object entries) n
  | typedValues {types items type layout n} (form : Layout.form? types type = some layout)
      (inner : Position layout (.list items) n) : Position (.typed types) (.list (type :: items)) n
  | tree {part r n} (inner : Position part.layout r n) : Position (.tree part) r n

theorem Position.not_plain {r : Reading} {n : GatedName} : ¬Position .plain r n := nofun

theorem Position.not_null {layout : Layout} {n : GatedName} : ¬Position layout .null n := by
  intro position
  generalize same : Reading.null = r at position
  induction position with
  | tree _ ih => exact ih same
  | _ => cases same

end TypedSql
