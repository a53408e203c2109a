import Mathlib.Data.List.Perm.Basic
import TypedSql.Proofs.Tree.Part

namespace TypedSql

def deepest (depths : List Nat) : Nat := depths.foldr max 0

@[simp] theorem deepest_nil : deepest [] = 0 := rfl

@[simp] theorem deepest_cons (depth : Nat) (depths : List Nat) :
    deepest (depth :: depths) = max depth (deepest depths) := rfl

@[simp] theorem deepest_append (first rest : List Nat) :
    deepest (first ++ rest) = max (deepest first) (deepest rest) := by
  induction first with
  | nil => simp
  | cons depth first ih => simp [ih, Nat.max_assoc]

theorem deepest_perm {depths other : List Nat} (same : depths.Perm other) :
    deepest depths = deepest other := same.foldr_eq 0

theorem deepest_le_iff {depths : List Nat} {bound : Nat} :
    deepest depths ≤ bound ↔ ∀ depth ∈ depths, depth ≤ bound := by
  induction depths with
  | nil => simp
  | cons depth depths ih => rw [deepest_cons, Nat.max_le, ih, List.forall_mem_cons]

@[simp] theorem deepest_replicate (n : Nat) : deepest (List.replicate n 0) = 0 :=
  Nat.le_zero.mp (deepest_le_iff.mpr (by simp))

theorem le_deepest {depths : List Nat} {depth : Nat} (member : depth ∈ depths) :
    depth ≤ deepest depths := deepest_le_iff.mp (Nat.le_refl _) depth member

theorem mem_deepest {depths : List Nat} (some : deepest depths ≠ 0) : deepest depths ∈ depths := by
  induction depths with
  | nil => simp at some
  | cons depth depths ih =>
    rw [deepest_cons] at some ⊢
    by_cases below : deepest depths ≤ depth
    · simp [Nat.max_eq_left below]
    · have larger : max depth (deepest depths) = deepest depths := Nat.max_eq_right (by omega)
      rw [larger] at some ⊢
      exact List.mem_cons_of_mem _ (ih some)

mutual

def Expr.nesting : Expr → Nat
  | .aggregate ⟨_, _, filter⟩ => optionalNesting filter
  | .case ⟨whens, _⟩ => whenNesting whens
  | .window ⟨_, _, _, _, _, ⟨_, orderBy, _⟩⟩ => orderNesting orderBy
  | .field _ | .coalesce _ | .nullIf _ _ | .math _ | .cast _ _ | .binary _ _ _ => 0
termination_by structural e => e

def Condition.nesting : Condition → Nat
  | .group _ items => conditionNesting items
  | .subquery _ _ query => query.nesting + 1
  | .expression e _ _ => e.nesting
  | .simple _ _ _ | .fieldComparison _ _ _ | .between _ _ _ _ | .aggregate _ _ _ _ => 0
termination_by structural condition => condition

/-- How many subqueries enclose what lies deepest in a query. -/
def Query.nesting : Query → Nat
  | { fields, joins, filter, having, orderBy, assignments, .. } =>
    deepest [projectedNesting fields, joinNesting joins, optionalNesting filter,
      optionalNesting having, orderNesting orderBy, assignmentNesting assignments]
termination_by structural query => query

def optionalNesting : Option Condition → Nat
  | none => 0
  | some condition => condition.nesting
termination_by structural condition => condition

def conditionNesting : List Condition → Nat
  | [] => 0
  | condition :: rest => max condition.nesting (conditionNesting rest)
termination_by structural conditions => conditions

def whenNesting : List WhenClause → Nat
  | [] => 0
  | ⟨condition, _⟩ :: rest => max condition.nesting (whenNesting rest)
termination_by structural whens => whens

def orderNesting : List OrderBy → Nat
  | [] => 0
  | ⟨expr, _, _⟩ :: rest => max expr.nesting (orderNesting rest)
termination_by structural items => items

def projectedNesting : List FieldExpr → Nat
  | [] => 0
  | ⟨expr, _⟩ :: rest => max expr.nesting (projectedNesting rest)
termination_by structural fields => fields

def joinNesting : List Join → Nat
  | [] => 0
  | ⟨_, _, on⟩ :: rest => max (optionalNesting on) (joinNesting rest)
termination_by structural joins => joins

def assignmentNesting : List Assignment → Nat
  | [] => 0
  | ⟨_, .param _⟩ :: rest => assignmentNesting rest
  | ⟨_, .expr e⟩ :: rest => max e.nesting (assignmentNesting rest)
termination_by structural assignments => assignments

end

def AssignValue.nesting : AssignValue → Nat
  | .param _ => 0
  | .expr e => e.nesting

def CompoundQuery.nesting (compound : CompoundQuery) : Nat :=
  deepest (compound.operands.map Query.nesting ++ [orderNesting compound.orderBy])

def Statement.nesting : Statement → Nat
  | .query q => q.nesting
  | .compound q => q.nesting

section Lists

@[simp] theorem optionalNesting_eq (x : Option Condition) :
    optionalNesting x = x.elim 0 Condition.nesting := by cases x <;> rfl

@[simp] theorem conditionNesting_eq (items : List Condition) :
    conditionNesting items = deepest (items.map Condition.nesting) := by
  induction items with
  | nil => rfl
  | cons x rest ih => simp [conditionNesting, ih]

@[simp] theorem whenNesting_eq (whens : List WhenClause) :
    whenNesting whens = deepest (whens.map fun w => w.condition.nesting) := by
  induction whens with
  | nil => rfl
  | cons w rest ih => obtain ⟨x, result⟩ := w; simp [whenNesting, ih]

@[simp] theorem orderNesting_eq (items : List OrderBy) :
    orderNesting items = deepest (items.map fun o => o.expr.nesting) := by
  induction items with
  | nil => rfl
  | cons o rest ih => obtain ⟨e, direction, nulls⟩ := o; simp [orderNesting, ih]

@[simp] theorem projectedNesting_eq (fields : List FieldExpr) :
    projectedNesting fields = deepest (fields.map fun f => f.expr.nesting) := by
  induction fields with
  | nil => rfl
  | cons f rest ih => obtain ⟨e, output⟩ := f; simp [projectedNesting, ih]

@[simp] theorem joinNesting_eq (joins : List Join) :
    joinNesting joins = deepest (joins.map fun j => j.on.elim 0 Condition.nesting) := by
  induction joins with
  | nil => rfl
  | cons j rest ih => obtain ⟨kind, table, on⟩ := j; simp [joinNesting, ih]

@[simp] theorem assignmentNesting_eq (assignments : List Assignment) :
    assignmentNesting assignments = deepest (assignments.map fun a => a.value.nesting) := by
  induction assignments with
  | nil => rfl
  | cons a rest ih =>
    obtain ⟨target, value⟩ := a
    cases value <;> simp [assignmentNesting, AssignValue.nesting, ih]

theorem Query.nesting_eq (q : Query) :
    q.nesting = deepest
      [deepest (q.fields.map fun f => f.expr.nesting),
        deepest (q.joins.map fun j => j.on.elim 0 Condition.nesting),
        q.filter.elim 0 Condition.nesting, q.having.elim 0 Condition.nesting,
        deepest (q.orderBy.map fun o => o.expr.nesting),
        deepest (q.assignments.map fun a => a.value.nesting)] := by
  cases q
  simp only [Query.nesting, projectedNesting_eq, joinNesting_eq, optionalNesting_eq,
    orderNesting_eq, assignmentNesting_eq]

end Lists

namespace Part

def nesting : Part → Nat
  | .statement s => s.nesting
  | .compound q => q.nesting
  | .query q => q.nesting
  | .projected f => f.expr.nesting
  | .join j => j.on.elim 0 Condition.nesting
  | .assignment a => a.value.nesting
  | .ordered o => o.expr.nesting
  | .expr e => e.nesting
  | .whenClause w => w.condition.nesting
  | .condition x => x.nesting
  | .operand _ | .row _ | .conflict _ | .table _ | .field _ | .name _ _ => 0

/-- How many subqueries lie between a constituent and those next below it. -/
def opens : Part → Nat
  | .condition (.subquery _ _ _) => 1
  | _ => 0

/-- A query among the constituents, with the number of subqueries that it is enclosed in. -/
inductive Encloses : Part → Nat → Query → Prop where
  | itself {q} : Encloses (.query q) 0 q
  | within {p part : Part} {depth q} (member : part ∈ p.parts) (encloses : Encloses part depth q) :
      Encloses p (depth + p.opens) q

theorem nesting_expr (e : Expr) :
    (Part.expr e).nesting = deepest ((Part.expr e).parts.map nesting) := by
  cases e with
  | aggregate call =>
    obtain ⟨kind, f, filter⟩ := call
    cases f <;> cases filter <;> simp [nesting, parts, Expr.parts, Expr.nesting]
  | case cases =>
    obtain ⟨whens, otherwise⟩ := cases
    simp [nesting, parts, Expr.parts, Expr.nesting, Function.comp_def]
  | window w =>
    obtain ⟨function, f, bucket, offset, fallback, ⟨partitionBy, orderBy, frame⟩⟩ := w
    simp [nesting, parts, Expr.parts, Expr.nesting, Function.comp_def]
  | _ => simp [nesting, parts, Expr.parts, Expr.nesting, Function.comp_def]

theorem nesting_condition (x : Condition) :
    (Part.condition x).nesting =
      deepest ((Part.condition x).parts.map nesting) + (Part.condition x).opens := by
  cases x <;> simp [nesting, parts, opens, Condition.parts, Condition.nesting, Function.comp_def]

theorem nesting_query (q : Query) :
    (Part.query q).nesting = deepest ((Part.query q).parts.map nesting) := by
  have optional (x : Option Condition) :
      deepest ((x.toList.map Part.condition).map nesting) = x.elim 0 Condition.nesting := by
    cases x <;> simp [nesting]
  simp only [nesting, Query.nesting_eq, parts, Query.parts, List.cons_append, List.map_cons,
    List.map_append, deepest_cons, deepest_append, optional]
  simp [Function.comp_def, nesting]

theorem nesting_eq (p : Part) : p.nesting = deepest (p.parts.map nesting) + p.opens := by
  cases p with
  | expr e => exact nesting_expr e
  | condition x => exact nesting_condition x
  | query q => exact nesting_query q
  | statement s => cases s <;> simp [nesting, parts, opens, Statement.nesting]
  | compound q =>
    simp [nesting, parts, opens, CompoundQuery.nesting, CompoundQuery.operands, Function.comp_def]
  | projected f => obtain ⟨e, output⟩ := f; cases output <;> simp [nesting, parts, opens]
  | join j => obtain ⟨kind, table, on⟩ := j; cases on <;> simp [nesting, parts, opens]
  | assignment a =>
    obtain ⟨target, value⟩ := a
    cases value <;> simp [nesting, parts, opens, AssignValue.nesting]
  | operand o => cases o <;> simp [nesting, parts, opens, Operand.parts]
  | conflict o =>
    obtain ⟨target, action⟩ := o
    cases action <;> simp [nesting, parts, opens, Function.comp_def]
  | field f =>
    have bottom : ∀ below ∈ f.parts, below.nesting = 0 := by
      intro below member
      obtain ⟨kind, name, rfl⟩ := name_of_mem_field member
      rfl
    simp [parts, opens, List.map_congr_left bottom, nesting]
  | ordered | whenClause | row | table | name => simp [nesting, parts, opens, Function.comp_def]

theorem Encloses.le_nesting {p : Part} {depth : Nat} {q : Query} (encloses : p.Encloses depth q) :
    depth ≤ p.nesting := by
  induction encloses with
  | itself => exact Nat.zero_le _
  | @within p part depth q member _ ih =>
    have below : part.nesting ≤ deepest (p.parts.map nesting) :=
      le_deepest (List.mem_map_of_mem member)
    rw [p.nesting_eq]
    omega

theorem opens_ne_zero {p : Part} (some : p.opens ≠ 0) :
    p.opens = 1 ∧ ∃ q, .query q ∈ p.parts := by
  unfold opens at some ⊢
  split
  · rename_i f op q
    exact ⟨rfl, q, by simp [parts, Condition.parts]⟩
  · simp at some

/-- What nests at all encloses a query that deep. -/
theorem encloses_nesting (p : Part) (nests : p.nesting ≠ 0) : ∃ q, p.Encloses p.nesting q := by
  induction p using Part.induction with
  | step p ih =>
    by_cases flat : deepest (p.parts.map nesting) = 0
    · have shallow : p.nesting = 0 + p.opens := by rw [p.nesting_eq, flat]
      obtain ⟨opened, q, member⟩ := opens_ne_zero (p := p) (by omega)
      exact ⟨q, shallow ▸ .within member .itself⟩
    · obtain ⟨part, member, same⟩ := List.mem_map.mp (mem_deepest flat)
      obtain ⟨q, encloses⟩ := ih part member (by rwa [same])
      exact ⟨q, p.nesting_eq ▸ same ▸ .within member encloses⟩

end Part

/-- The nesting of a statement is the greatest number of subqueries around any query in it. -/
theorem Statement.nesting_greatest (statement : Statement) :
    (∃ q, (Part.statement statement).Encloses statement.nesting q) ∧
      ∀ depth q, (Part.statement statement).Encloses depth q → depth ≤ statement.nesting := by
  refine ⟨?_, fun depth q encloses => encloses.le_nesting⟩
  by_cases flat : statement.nesting = 0
  · rw [flat]
    have itself (q : Query) : (Part.query q).Encloses 0 q := .itself
    cases statement with
    | query q => exact ⟨q, .within (by simp [Part.parts]) (itself q)⟩
    | compound compound =>
      have base : (Part.compound compound).Encloses 0 compound.base :=
        .within (by simp [Part.parts]) (itself compound.base)
      exact ⟨compound.base, .within (by simp [Part.parts]) base⟩
  · exact (Part.statement statement).encloses_nesting flat

end TypedSql
