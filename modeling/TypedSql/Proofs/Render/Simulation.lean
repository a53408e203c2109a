import TypedSql.Proofs.Render.Statement
import TypedSql.Proofs.Sql.Move
import TypedSql.Proofs.Tree.Nesting

namespace TypedSql

/-- A way in which a rendering goes along with another one of the same document. `Follows c k f x y`
    says what becomes of `y` when `x` makes `a` and `y` is to make `f a`, where `y` stands in the
    context `c` and what it renders reaches `k` subqueries deeper. -/
structure Simulation where
  move : Hole → Hole
  Beside : Context → Context → Prop
  Follows : {α β : Type} → Context → Nat → (α → β) → Render α → Render β → Prop
  dialect_eq {c c' : Context} : Beside c c' → c'.dialect = c.dialect
  pure {α β : Type} (c : Context) (f : α → β) (a : α) : Follows c 0 f (pure a) (pure (f a))
  fail {α β : Type} (c : Context) (k : Nat) (f : α → β) (e : RenderError) :
    Follows c k f (Render.fail e) (Render.fail e)
  bind {α β γ δ : Type} {c : Context} {k l : Nat} {f : α → β} {g : γ → δ} {x : Render α}
    {y : Render β} {next : α → Render γ} {next' : β → Render δ} :
    Follows c k f x y → (∀ a, Follows c l g (next a) (next' (f a))) →
      Follows c (max k l) g (x >>= next) (y >>= next')
  param {c c' : Context} : Beside c c' → ∀ p, Follows c' 0 (Sql.move move) (c.param p) (c'.param p)
  enter {c c' : Context} {α β : Type} {k : Nat} {f : α → β} {inner : Context → Render α}
    {inner' : Context → Render β} : Beside c c' →
    (∀ child child', Beside child child' → Follows child' k f (inner child) (inner' child')) →
      Follows c' (k + 1) f (Render.ofExcept c.enter >>= inner) (Render.ofExcept c'.enter >>= inner')

namespace Simulation
variable {S : Simulation} {c c' : Context} {k : Nat} {α β γ δ : Type}

abbrev Writes (S : Simulation) (c : Context) (k : Nat) (x y : Render Sql) : Prop :=
  S.Follows c k (Sql.move S.move) x y

section Steps
variable {f : α → β} {g : γ → δ} {x : Render α} {y : Render β} {next : α → Render γ}
  {next' : β → Render δ}

theorem made {a : α} {b : β} (same : f a = b) : S.Follows c 0 f (Pure.pure a) (Pure.pure b) :=
  same ▸ S.pure c f a

theorem andThen (first : S.Follows c k f x y) (rest : ∀ a, S.Follows c 0 g (next a) (next' (f a))) :
    S.Follows c k g (x >>= next) (y >>= next') := Nat.max_zero k ▸ S.bind first rest

theorem following (first : S.Follows c 0 f x y)
    (rest : ∀ a, S.Follows c k g (next a) (next' (f a))) :
    S.Follows c k g (x >>= next) (y >>= next') := Nat.zero_max k ▸ S.bind first rest

theorem given {z : Except RenderError α} {next' : α → Render δ}
    (rest : ∀ a, z = .ok a → S.Follows c k g (next a) (next' a)) :
    S.Follows c k g (Render.ofExcept z >>= next) (Render.ofExcept z >>= next') := by
  cases z with
  | ok a => simpa using rest a rfl
  | error e => exact S.fail c k g e

theorem lift {z : Except RenderError Sql} (silent : ∀ s, z = .ok s → s.holes = []) :
    S.Writes c 0 (Render.ofExcept z) (Render.ofExcept z) := by
  cases z with
  | ok s => exact made (Sql.move_of_silent S.move (silent s rfl))
  | error e => exact S.fail c 0 _ e

theorem all {f f' : α → Render Sql} {depth : α → Nat} {xs : List α}
    (each : ∀ x ∈ xs, S.Writes c (depth x) (f x) (f' x)) :
    S.Follows c (deepest (xs.map depth)) (List.map (Sql.move S.move)) (Render.all (xs.map f))
      (Render.all (xs.map f')) := by
  induction xs with
  | nil => exact made rfl
  | cons x rest ih =>
    have others := ih fun y member => each y (List.mem_cons_of_mem _ member)
    refine S.bind (each x List.mem_cons_self) fun s => ?_
    exact andThen others fun parts => made rfl

theorem allLevel {f f' : α → Render Sql} {xs : List α}
    (each : ∀ x ∈ xs, S.Writes c 0 (f x) (f' x)) :
    S.Follows c 0 (List.map (Sql.move S.move)) (Render.all (xs.map f)) (Render.all (xs.map f')) := by
  have flat : deepest (xs.map fun _ => 0) = 0 := by simp
  exact flat ▸ all each

end Steps

section Expressions
variable (beside : S.Beside c c')
include beside

theorem operand (x : Operand) : S.Writes c' 0 (x.render c) (x.render c') := by
  cases x with
  | field f =>
    simp only [Operand.render, S.dialect_eq beside]
    exact lift fun s columned => Field.holes_of_render columned
  | param p => exact S.param beside p

theorem aggregate (kind : AggregateKind) (field : Option Field) :
    S.Writes c' 0 (renderAggregate c kind field none)
      (renderAggregate c' kind field none) := by
  simp only [renderAggregate, S.dialect_eq beside]
  refine given fun column columned => made ?_
  simp [Sql.move_of_silent _ (holes_aggregateField columned _)]

theorem filtered (kind : AggregateKind) (field : Option Field) {x y : Render Sql}
    (filter : S.Writes c' k x y) :
    S.Writes c' k (renderAggregate c kind field (some x))
      (renderAggregate c' kind field (some y)) := by
  simp only [renderAggregate, S.dialect_eq beside]
  refine given fun column columned => andThen filter fun condition => ?_
  have silent := holes_aggregateField columned
  split
  · exact made (by simp [Sql.move_of_silent _ (silent _)])
  · exact made (by simp [Sql.move_of_silent _ (silent _)])

theorem whenClause {x y : Render Sql} (condition : S.Writes c' k x y) (p : Param) :
    S.Writes c' k (renderWhen c x p) (renderWhen c' y p) := by
  refine andThen condition fun text => ?_
  exact following (S.param beside p) fun result => made (by simp)

theorem caseExpr {whens : List α} {f f' : α → Render Sql} {depth : α → Nat}
    (each : ∀ w ∈ whens, S.Writes c' (depth w) (f w) (f' w)) (otherwise : Option Param) :
    S.Writes c' (deepest (whens.map depth)) (renderCase c (whens.map f) otherwise)
      (renderCase c' (whens.map f') otherwise) := by
  unfold renderCase
  cases whens with
  | nil => exact S.fail _ _ _ _
  | cons w rest =>
    refine andThen (all each) fun parts => ?_
    cases otherwise with
    | none => exact made (by simp)
    | some p => exact following (S.param beside p) fun value => made (by simp)

theorem coalesce (operands : List Operand) :
    S.Writes c' 0 (renderCoalesce c operands) (renderCoalesce c' operands) := by
  unfold renderCoalesce
  split
  · exact S.fail _ _ _ _
  · exact following (allLevel fun x _ => operand beside x) fun parts => made (by simp)

theorem nullIf (left right : Operand) :
    S.Writes c' 0 (renderNullIf c left right) (renderNullIf c' left right) := by
  refine following (operand beside left) fun l => ?_
  exact following (operand beside right) fun r => made (by simp)

theorem mathCall (call : MathCall) : S.Writes c' 0 (call.render c) (call.render c') := by
  unfold MathCall.render
  rw [S.dialect_eq beside]
  refine given fun column columned => ?_
  have silent := Sql.move_of_silent S.move (Field.holes_of_render columned)
  refine given fun argument _ => ?_
  cases argument with
  | none => exact made (by simp [silent])
  | some p => exact following (S.param beside p) fun value => made (by simp [silent])

theorem cast (f : Field) (type : CastType) :
    S.Writes c' 0 (.ofExcept (renderCast c f type)) (.ofExcept (renderCast c' f type)) := by
  simp only [renderCast, S.dialect_eq beside]
  refine lift fun s written => ?_
  simp only [Except.bind_eq_ok, Pure.pure, Except.pure, Except.ok.injEq] at written
  obtain ⟨column, columned, name, -, rfl⟩ := written
  simp [Field.holes_of_render columned]

theorem binary (f : Field) (op : BinaryOp) (p : Param) :
    S.Writes c' 0 (renderBinary c f op p) (renderBinary c' f op p) := by
  simp only [renderBinary, S.dialect_eq beside]
  refine given fun column columned => following (S.param beside p) fun value => ?_
  have silent := Sql.move_of_silent S.move (Field.holes_of_render columned)
  have moved := binary_move S.move c.dialect column value op
  rw [silent] at moved
  rw [moved]
  cases c.dialect.binary column op value with
  | ok s => exact made rfl
  | error e => exact S.fail _ _ _ _

theorem orderItem {x y : Render Sql} (expr : S.Writes c' k x y) (direction : Direction)
    (nulls : Option NullsPlacement) :
    S.Writes c' k (renderOrderItem c x direction nulls)
      (renderOrderItem c' y direction nulls) := by
  simp only [renderOrderItem, S.dialect_eq beside]
  refine andThen expr fun text => ?_
  cases nulls with
  | none => exact made (by simp)
  | some nulls => exact given fun _ _ => made (by simp)

omit beside in
theorem fieldExpr {x y : Render Sql} (expr : S.Writes c k x y) (output : Option Alias) :
    S.Writes c k (renderFieldExpr x output) (renderFieldExpr y output) := by
  refine andThen expr fun text => ?_
  cases output <;> exact made (by simp)

end Expressions

section Windows
variable (beside : S.Beside c c') (w : WindowCall)
include beside

theorem shiftArguments {column : Sql} (silent : column.holes = []) :
    S.Follows c' 0 (List.map (Sql.move S.move)) (w.shiftArguments c column)
      (w.shiftArguments c' column) := by
  have fixed := Sql.move_of_silent S.move silent
  unfold WindowCall.shiftArguments
  cases w.offset with
  | none =>
    cases w.fallback with
    | none => exact made (by simp [fixed])
    | some fallback => exact following (S.param beside fallback) fun q => made (by simp [fixed])
  | some offset =>
    cases w.fallback with
    | none => exact following (S.param beside offset) fun p => made (by simp [fixed])
    | some fallback =>
      refine following (S.param beside offset) fun p => ?_
      exact following (S.param beside fallback) fun q => made (by simp [fixed])

theorem windowCall : S.Writes c' 0 (w.renderCall c) (w.renderCall c') := by
  have required {missing : Missing} {column : Sql}
      (columned : renderRequired w.field missing c.dialect = .ok column) : column.holes = [] := by
    cases given : w.field with
    | none => simp [renderRequired, given] at columned
    | some f => exact Field.holes_of_render (f := f) (by simpa [renderRequired, given] using columned)
  unfold WindowCall.renderCall
  simp only [S.dialect_eq beside]
  refine given fun _ _ => ?_
  cases w.function with
  | rowNumber | rank | denseRank =>
    simp only
    split
    · exact S.fail _ _ _ _
    · exact made (by simp)
  | ntile =>
    simp only
    split
    · exact S.fail _ _ _ _
    · cases w.bucket with
      | none => exact S.fail _ _ _ _
      | some bucket => exact following (S.param beside bucket) fun p => made (by simp)
  | lag | lead =>
    refine given fun column columned => ?_
    exact following (shiftArguments beside w (required columned)) fun arguments => made (by simp)
  | firstValue | lastValue =>
    refine given fun column columned => made ?_
    simp [Sql.move_of_silent _ (required columned)]
  | aggregate kind =>
    refine given fun column columned => made ?_
    simp [Sql.move_of_silent _ (holes_aggregateField columned _)]

omit beside in
theorem orderParts {items : List α} {f f' : α → Render Sql} {depth : α → Nat}
    (each : ∀ o ∈ items, S.Writes c (depth o) (f o) (f' o)) :
    S.Follows c (deepest (items.map depth)) (List.map (Sql.move S.move))
      (WindowCall.orderParts (items.map f)) (WindowCall.orderParts (items.map f')) := by
  cases items with
  | nil => exact made rfl
  | cons o rest => exact andThen (all each) fun parts => made (by simp)

theorem window {items : List α} {f f' : α → Render Sql} {depth : α → Nat}
    (each : ∀ o ∈ items, S.Writes c' (depth o) (f o) (f' o)) :
    S.Writes c' (deepest (items.map depth)) (w.render c (items.map f))
      (w.render c' (items.map f')) := by
  refine following (windowCall beside w) fun call => ?_
  refine andThen (f := Sql.move S.move) ?_ fun rows => made (by simp)
  simp only [WindowCall.renderOver, S.dialect_eq beside]
  refine given fun partitioned partition => andThen (orderParts each) fun ordered => ?_
  refine given fun framed frame => made ?_
  simp [Sql.map_move_of_silent _ (holes_partition partition),
    Sql.map_move_of_silent _ (holes_frame frame)]

end Windows

section Conditions
variable (beside : S.Beside c c')
include beside

theorem simple (f : Field) (op : Operator) (param : Option Param) :
    S.Writes c' 0 (renderSimple c f op param) (renderSimple c' f op param) := by
  simp only [renderSimple, S.dialect_eq beside]
  refine given fun column columned => ?_
  have silent := Sql.move_of_silent S.move (Field.holes_of_render columned)
  split
  · split
    · exact S.fail _ _ _ _
    · exact made (by simp [silent])
  · split
    · exact S.fail _ _ _ _
    · cases param with
      | none => exact S.fail _ _ _ _
      | some p => exact following (S.param beside p) fun value => made (by simp [silent])

theorem fieldComparison (left : Field) (op : Operator) (right : Field) :
    S.Writes c' 0 (.ofExcept (renderFieldComparison c left op right))
      (.ofExcept (renderFieldComparison c' left op right)) := by
  simp only [renderFieldComparison, S.dialect_eq beside]
  refine lift fun s written => ?_
  split at written
  · simp only [Except.bind_eq_ok, Pure.pure, Except.pure, Except.ok.injEq] at written
    obtain ⟨l, first, r, second, rfl⟩ := written
    simp [Field.holes_of_render first, Field.holes_of_render second]
  · simp at written

theorem subquery (f : Option Field) (op : Operator) (operation : Operation)
    {inner inner' : Context → Render Sql}
    (each : ∀ child child', S.Beside child child' → S.Writes child' k (inner child) (inner' child')) :
    S.Writes c' (k + 1) (renderSubquery c f op operation inner)
      (renderSubquery c' f op operation inner') := by
  have same : subqueryLeft c' f op = subqueryLeft c f op := by
    simp only [subqueryLeft, S.dialect_eq beside]
  unfold renderSubquery
  rw [same]
  refine given fun left started => given fun _ _ => S.enter beside fun child child' entered => ?_
  refine andThen (each child child' entered) fun query => made ?_
  simp [Sql.move_of_silent _ (holes_subqueryLeft started)]

theorem between (f : Field) (low high : Param) (negated : Bool) :
    S.Writes c' 0 (renderBetween c f low high negated)
      (renderBetween c' f low high negated) := by
  simp only [renderBetween, S.dialect_eq beside]
  refine given fun column columned => following (S.param beside low) fun l => ?_
  have silent := Sql.move_of_silent S.move (Field.holes_of_render columned)
  exact following (S.param beside high) fun h => made (by simp [silent])

theorem aggregateCondition (scope : Scope) (kind : AggregateKind) (f : Option Field)
    (op : Operator) (p : Param) :
    S.Writes c' 0 (renderAggregateCondition c scope kind f op p)
      (renderAggregateCondition c' scope kind f op p) := by
  unfold renderAggregateCondition
  split
  · exact S.fail _ _ _ _
  · split
    · exact S.fail _ _ _ _
    · refine following (aggregate beside kind f) fun left => ?_
      exact following (S.param beside p) fun value => made (by simp)

theorem expressionCondition {x y : Render Sql} (expr : S.Writes c' k x y) (scope : Scope)
    (isAggregate : Bool) (op : Operator) (p : Param) :
    S.Writes c' k (renderExpressionCondition c scope isAggregate x op p)
      (renderExpressionCondition c' scope isAggregate y op p) := by
  simp only [renderExpressionCondition, S.dialect_eq beside]
  split
  · exact S.fail _ _ _ _
  · split
    · exact S.fail _ _ _ _
    · refine andThen expr fun left => ?_
      exact following (S.param beside p) fun value => made (by simp)

omit beside in
theorem group (op : Connective) (nested : Bool) {items : List α} {f f' : α → Render Sql}
    {depth : α → Nat} (each : ∀ x ∈ items, S.Writes c (depth x) (f x) (f' x)) :
    S.Writes c (deepest (items.map depth)) (renderGroup op nested (items.map f))
      (renderGroup op nested (items.map f')) := by
  refine andThen (all each) fun parts => made ?_
  cases nested <;> simp

end Conditions

end Simulation

end TypedSql
