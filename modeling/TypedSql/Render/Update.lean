import TypedSql.Render.Clause

namespace TypedSql

/-- Values that hold for a row; aggregates and window functions range over several. -/
def checkAssigned : AssignValue → Except RenderError Unit
  | .expr (.aggregate _) => .error (.invalidAssignment .aggregate)
  | .expr (.window _) => .error (.invalidAssignment .window)
  | _ => .ok ()

def renderAssigned (c : Context) (value : AssignValue) (expr : Render Sql) : Render Sql := do
  checkAssigned value
  match value with
  | .param param => c.param param
  | .expr _ => expr

def sortAssignments {α : Type} (assignments : List (Field × α)) : List (Field × α) :=
  assignments.mergeSort fun a b => decide (a.1.name ≤ b.1.name)

/-- The first name that two neighbours share. -/
def repeatedNeighbour? {α : Type} : List (Field × α) → Option String
  | a :: b :: rest =>
    if a.1.name = b.1.name then some a.1.name else repeatedNeighbour? (b :: rest)
  | _ => none

def renderAssignment (assignment : Field × Render Sql) : Render Sql := do
  if assignment.1.isPlain then
    let value ← assignment.2
    pure ([.name .field assignment.1.name, .text " = "] ++ value)
  else Render.fail (.invalidAssignment .target)

/-- All assignments in the order of their names, each name once. -/
def renderAssignments (assignments : List (Field × Render Sql)) : Render Sql :=
  let sorted := sortAssignments assignments
  match repeatedNeighbour? sorted with
  | some name => Render.fail (.duplicateAssignment name)
  | none => do
    let sets ← Render.all (sorted.map renderAssignment)
    pure (Sql.commaList sets)

def renderUpdate (c : Context) (q : Query) (parts : QueryParts) : Render Sql := do
  q.checkClauses
  if q.assignments.isEmpty then Render.fail (.missingOperand .assignment)
  else
    let sets ← renderAssignments parts.assignments
    let output ← renderOutput c.dialect .inserted q.returning
    let filter ← renderConditional "WHERE" parts.filter
    let returning ← renderReturning c.dialect q.returning
    pure (sql "UPDATE " ++ q.table.render ++ sql " SET " ++ sets ++ output ++ filter ++
      returning)

def renderDelete (c : Context) (q : Query) (parts : QueryParts) : Render Sql := do
  q.checkClauses
  let output ← renderOutput c.dialect .deleted q.returning
  let filter ← renderConditional "WHERE" parts.filter
  let returning ← renderReturning c.dialect q.returning
  pure (sql "DELETE FROM " ++ q.table.render ++ output ++ filter ++ returning)

end TypedSql
