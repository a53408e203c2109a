import TypedSql.Render.Tree
import TypedSql.Sql.ParamSet

namespace TypedSql

/-- A statement as it is sent: its text, and its parameters in the order of first use. -/
structure Rendered where
  sql : String
  params : List String
  deriving DecidableEq, Repr

/-- A placeholder, by the name or by the number of its parameter. -/
def Dialect.placeholder (d : Dialect) (style : PlaceholderStyle) (name : String) (number : Nat) :
    String :=
  match style with
  | .named => d.namedPlaceholder name
  | .numbered => d.numberedPlaceholder number

/-- Spells uses of parameters one by one. Each inserts its name among the parameters, and the
    place that the insertion gives is its number. -/
def spellUses (d : Dialect) (style : PlaceholderStyle) (params : ParamSet) :
    List Hole → List String × ParamSet
  | [] => ([], params)
  | use :: rest =>
    let (number, params) := params.insert use.name
    let (spellings, params) := spellUses d style params rest
    (d.placeholder style use.name number :: spellings, params)

/-- The text of a rendering, with the parameters so far and after it. Uses stand in the text in
    the order in which they are recorded. -/
def Render.text (d : Dialect) (style : PlaceholderStyle) (params : ParamSet) (x : Render Sql) :
    Except RenderError String × ParamSet :=
  let (spellings, params) := spellUses d style params x.recorded
  (x.result.map fun s => (s.fill spellings).write d Hole.name, params)

/-- The placeholder of a use whose name is among the parameters. -/
def spellHole (d : Dialect) (style : PlaceholderStyle) (params : ParamSet) (use : Hole) : String :=
  d.placeholder style use.name (params.position use.name)

@[simp] theorem spellHole_named (d : Dialect) (params : ParamSet) (use : Hole) :
    spellHole d .named params use = d.namedPlaceholder use.name := rfl

@[simp] theorem spellHole_numbered (d : Dialect) (params : ParamSet) (use : Hole) :
    spellHole d .numbered params use = d.numberedPlaceholder (params.position use.name) := rfl

/-- What keeps a query from being an operand of a compound query. -/
def Query.operandFault? (q : Query) : Option OperandFault :=
  if q.operation ≠ .select then some .notSelect
  else if !q.orderBy.isEmpty then some .ordered
  else if q.limit.isSome || q.offset.isSome then some .paginated
  else if q.lock.isSome then some .locking
  else none

def checkOperands (index : Nat) : List Query → Except RenderError Unit
  | [] => .ok ()
  | q :: rest =>
    match q.operandFault? with
    | some fault => .error (.invalidCompoundOperand index fault)
    | none => checkOperands (index + 1) rest

def CompoundPart.render (c : Context) (part : CompoundPart) : Render Sql := do
  c.dialect.require (.setOperation part.op)
  let query ← part.query.render c
  pure (sql (" " ++ part.op.display ++ " ") ++ query)

/-- The operands share their level and their parameters. -/
def CompoundQuery.render (compound : CompoundQuery) (c : Context) : Render Sql := do
  if compound.parts.isEmpty then Render.fail (.missingOperand .secondOperand)
  else
    checkOperands 0 compound.operands
    let base ← compound.base.render c
    let parts ← Render.all (compound.parts.map (CompoundPart.render c))
    let orderBy ← renderOrderClause (renderOrder compound.orderBy c)
    let pagination :=
      sql (c.dialect.pagination compound.limit compound.offset (!compound.orderBy.isEmpty))
    pure (base ++ parts.flatten ++ orderBy ++ pagination)

def Statement.render (statement : Statement) (c : Context) : Render Sql :=
  match statement with
  | .query q => q.render c
  | .compound q => q.render c

def RenderOptions.run (options : RenderOptions) (build : Context → Render Sql) :
    Except RenderError Rendered :=
  let (text, params) := (build (.top options)).text options.dialect options.placeholders .empty
  text.map fun sql => { sql, params := params.names }

def Query.toSql (q : Query) (options : RenderOptions) : Except RenderError Rendered :=
  options.run q.render

def CompoundQuery.toSql (compound : CompoundQuery) (options : RenderOptions) :
    Except RenderError Rendered :=
  options.run compound.render

def Statement.toSql (statement : Statement) (options : RenderOptions) :
    Except RenderError Rendered :=
  options.run statement.render

end TypedSql
