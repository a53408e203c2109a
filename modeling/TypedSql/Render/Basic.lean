import TypedSql.Options
import TypedSql.Render.Error
import TypedSql.Sql.Basic

namespace TypedSql

/-- Where a query is rendered: for which dialect and style, how many subqueries enclose it,
    and how many may. -/
structure Context where
  dialect : Dialect
  style : PlaceholderStyle
  depth : Nat
  ceiling : Nat
  deriving DecidableEq

namespace Context

def top (options : RenderOptions) : Context where
  dialect := options.dialect
  style := options.placeholders
  depth := 0
  ceiling := options.maxSubqueryDepth.toNat

def enter (c : Context) : Except RenderError Context :=
  if c.depth + 1 ≤ c.ceiling then .ok { c with depth := c.depth + 1 }
  else .error (.depthExceeded (c.depth + 1) c.ceiling)

end Context

/-- A rendering: the parameters it came by, in order, and what it makes or why it fails. A
    failed rendering still knows the parameters up to its failure. -/
structure Render (α : Type) where
  recorded : List Hole
  result : Except RenderError α

namespace Render
variable {α β : Type}

def fail (e : RenderError) : Render α := ⟨[], .error e⟩

def ofExcept (x : Except RenderError α) : Render α := ⟨[], x⟩

/-- The second rendering follows only on success of the first. -/
protected def bind (x : Render α) (f : α → Render β) : Render β :=
  match x.result with
  | .ok a => ⟨x.recorded ++ (f a).recorded, (f a).result⟩
  | .error e => ⟨x.recorded, .error e⟩

instance : Monad Render where
  pure a := ⟨[], .ok a⟩
  bind := Render.bind

instance : MonadLift (Except RenderError) Render where
  monadLift := ofExcept

@[simp] theorem result_pure (a : α) : (pure a : Render α).result = .ok a := rfl

@[simp] theorem result_fail (e : RenderError) : (fail e : Render α).result = .error e := rfl

@[simp] theorem result_ofExcept (x : Except RenderError α) : (ofExcept x).result = x := rfl

@[simp] theorem result_bind (x : Render α) (f : α → Render β) :
    (x >>= f).result = x.result >>= fun a => (f a).result := by
  simp only [bind, Render.bind, Except.bind]
  split <;> simp_all

def all : List (Render α) → Render (List α)
  | [] => pure []
  | x :: rest => do
    let a ← x
    let as ← all rest
    pure (a :: as)

end Render

def Dialect.require (d : Dialect) (feature : Feature) : Except RenderError Unit :=
  if d.supports feature then .ok () else .error (.unsupported d feature)

/-- A placeholder. The parameter is on record even where the style is refused. -/
def Context.param (c : Context) (p : Param) : Render Sql where
  recorded := [⟨c.depth, p⟩]
  result :=
    match c.style with
    | .named => .ok [.hole ⟨c.depth, p⟩]
    | .numbered => (c.dialect.require .numberedPlaceholders).map fun () => [.hole ⟨c.depth, p⟩]

end TypedSql
