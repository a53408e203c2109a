import Mathlib.Data.Set.Insert
import TypedSql.Proofs.Render.Constituents

namespace TypedSql

/-- The queries of the subquery conditions within a constituent. -/
def Part.asked (p : Part) : Set Query :=
  {q | ∃ f op, (Part.condition (.subquery f op q)).Within p}

def askedIn {α : Type} (asked : α → Set Query) (xs : List α) : Set Query := {q | ∃ x ∈ xs, q ∈ asked x}

section Asked
variable {α β : Type} {f : α → Set Query} {q : Query}

@[simp] theorem askedIn_nil : askedIn f [] = ∅ := by
  ext q
  simp [askedIn]

@[simp] theorem askedIn_cons {x : α} {xs : List α} :
    askedIn f (x :: xs) = f x ∪ askedIn f xs := by
  ext q
  simp [askedIn]

@[simp] theorem askedIn_append {xs ys : List α} :
    askedIn f (xs ++ ys) = askedIn f xs ∪ askedIn f ys := by
  ext q
  simp [askedIn, or_and_right, exists_or]

@[simp] theorem askedIn_map {g : β → α} {xs : List β} :
    askedIn f (xs.map g) = askedIn (fun x => f (g x)) xs := by
  ext q
  simp [askedIn]

@[simp] theorem askedIn_empty {xs : List α} : askedIn (fun _ => ∅) xs = ∅ := by
  ext q
  simp [askedIn]

namespace Part

def own : Part → Set Query
  | .condition (.subquery _ _ q) => {q}
  | _ => ∅

theorem mem_own {p : Part} : q ∈ p.own ↔ ∃ f op, p = .condition (.subquery f op q) := by
  cases p with
  | condition x => cases x <;> simp [own, eq_comm]
  | _ => simp [own]

theorem asked_eq (p : Part) : p.asked = p.own ∪ askedIn asked p.parts := by
  ext q
  have cut (f : Option Field) (op : Operator) := Relation.ReflTransGen.cases_tail_iff
    (fun below above : Part => below ∈ above.parts) (.condition (.subquery f op q)) p
  simp only [asked, Within, Set.mem_union, mem_own, askedIn, Set.mem_ofPred_eq, cut, exists_or]
  refine or_congr Iff.rfl ⟨?_, ?_⟩
  · rintro ⟨f, op, below, inner, member⟩
    exact ⟨below, member, f, op, inner⟩
  · rintro ⟨below, member, f, op, inner⟩
    exact ⟨f, op, below, inner, member⟩

@[simp] theorem asked_name {kind : NameKind} {n : String} : (name kind n).asked = ∅ := by
  rw [asked_eq]
  simp [own, parts]

@[simp] theorem asked_field {f : Field} : (field f).asked = ∅ := by
  rw [asked_eq]
  ext q
  simp only [own, Set.empty_union, askedIn, Set.mem_ofPred_eq, Set.mem_empty_iff_false, iff_false]
  rintro ⟨below, member, inner⟩
  obtain ⟨kind, name, rfl⟩ := name_of_mem_field member
  simp at inner

@[simp] theorem asked_table {t : Table} : (table t).asked = ∅ := by
  rw [asked_eq]
  simp [own, parts]

@[simp] theorem asked_operand {o : Operand} : (operand o).asked = ∅ := by
  rw [asked_eq]
  cases o <;> simp [own, parts, Operand.parts]

@[simp] theorem asked_row {r : Row} : (row r).asked = ∅ := by
  rw [asked_eq]
  simp [own, parts]

@[simp] theorem asked_conflict {o : OnConflict} : (conflict o).asked = ∅ := by
  rw [asked_eq]
  obtain ⟨target, action⟩ := o
  cases action <;> simp [own, parts]

@[simp] theorem asked_projected {f : FieldExpr} : (projected f).asked = (expr f.expr).asked := by
  rw [asked_eq]
  simp [own, parts]

@[simp] theorem asked_ordered {o : OrderBy} : (ordered o).asked = (expr o.expr).asked := by
  rw [asked_eq]
  simp [own, parts]

@[simp] theorem asked_whenClause {w : WhenClause} :
    (whenClause w).asked = (condition w.condition).asked := by
  rw [asked_eq]
  simp [own, parts]

@[simp] theorem asked_join {j : Join} :
    (join j).asked = askedIn (fun x => (condition x).asked) j.on.toList := by
  rw [asked_eq]
  simp [own, parts]

end Part

def Expr.asked : Expr → Set Query
  | .aggregate call => askedIn (fun x => (Part.condition x).asked) call.filter.toList
  | .case cases => askedIn (fun w => (Part.whenClause w).asked) cases.whens
  | .window w => askedIn (fun o => (Part.ordered o).asked) w.window.orderBy
  | _ => ∅

theorem Part.asked_expr (e : Expr) : (expr e).asked = e.asked := by
  rw [asked_eq]
  cases e <;> simp [own, parts, Expr.parts, Expr.asked]

@[simp] theorem Part.asked_column {f : Field} : (expr (.field f)).asked = ∅ := by
  rw [asked_expr]
  rfl

def Condition.asked : Condition → Set Query
  | .group _ items => askedIn (fun x => (Part.condition x).asked) items
  | .subquery _ _ q => {q} ∪ (Part.query q).asked
  | .expression e _ _ => (Part.expr e).asked
  | _ => ∅

theorem Part.asked_condition (x : Condition) : (condition x).asked = x.asked := by
  rw [asked_eq]
  cases x <;> simp [own, parts, Condition.parts, Condition.asked]

end Asked
end TypedSql
