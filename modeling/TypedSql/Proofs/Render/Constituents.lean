import Mathlib.Logic.Relation
import TypedSql.Proofs.Render.Statement

namespace TypedSql

/-- That a constituent occurs in another at any depth; each occurs in itself. -/
def Part.Within (p whole : Part) : Prop :=
  Relation.ReflTransGen (fun below above : Part => below ∈ above.parts) p whole

def Node.RendersIn (c : Context) (n : Node) : Prop := ∃ s, Renders c n s

def Node.Rendered (n : Node) : Prop := ∃ c, n.RendersIn c

def Condition.Rendered (x : Condition) : Prop :=
  ∃ scope nested, (Node.condition scope nested x).Rendered

def Part.Rendered : Part → Prop
  | .statement s => ∃ c sent, s.Renders c sent
  | .compound q => ∃ c sent, (Statement.compound q).Renders c sent
  | .query q => (Node.query q).Rendered
  | .projected f => (Node.projected f).Rendered
  | .join j => (Node.join j).Rendered
  | .assignment a => (Node.assigned a.value).Rendered
  | .ordered o => (Node.ordered o).Rendered
  | .expr e => (Node.expr e).Rendered
  | .whenClause w => (Node.whenClause w).Rendered
  | .condition x => x.Rendered
  | .operand _ | .row _ | .conflict _ | .table _ | .field _ | .name _ _ => True

structure Query.ClausesRender (c : Context) (q : Query) : Prop where
  fields : ∀ f ∈ q.fields, (Node.projected f).RendersIn c
  joins : ∀ j ∈ q.joins, (Node.join j).RendersIn c
  filter : ∀ x ∈ q.filter, (Node.condition .whereClause false x).RendersIn c
  having : ∀ x ∈ q.having, (Node.condition .having false x).RendersIn c
  orderBy : ∀ o ∈ q.orderBy, (Node.ordered o).RendersIn c
  assignments : ∀ a ∈ q.assignments, (Node.assigned a.value).RendersIn c

section Members
variable {c : Context} {s : Sql}

theorem Query.clauses_render {q : Query} (made : Renders c (.query q) s) : q.ClausesRender c := by
  cases made with
  | select operation clauses _ _ fieldsListed projects _ joinsListed joined filterGiven filters _
      havingGiven havings itemsListed order =>
    obtain ⟨-, assignments, -, -⟩ := q.reads_only clauses (.inl operation)
    exact {
      fields := forall_fst fieldsListed fun f member => ⟨_, projects f member⟩
      joins := forall_fst joinsListed fun j member => ⟨_, joined j member⟩
      filter := forall_fst_option filterGiven fun x member => ⟨_, filters x member⟩
      having := forall_fst_option havingGiven fun x member => ⟨_, havings x member⟩
      orderBy := forall_fst itemsListed fun o member => ⟨_, order o member⟩
      assignments := by simp [assignments] }
  | count operation clauses joinsListed joined filterGiven filters =>
    obtain ⟨-, assignments, -, -⟩ := q.reads_only clauses (.inr operation)
    obtain ⟨-, fields, -, having, orderBy⟩ := q.selects_nothing clauses (by simp [operation])
    exact {
      fields := by simp [fields]
      joins := forall_fst joinsListed fun j member => ⟨_, joined j member⟩
      filter := forall_fst_option filterGiven fun x member => ⟨_, filters x member⟩
      having := by simp [having]
      orderBy := by simp [orderBy]
      assignments := by simp [assignments] }
  | insert operation clauses =>
    obtain ⟨-, fields, -, having, orderBy⟩ := q.selects_nothing clauses (by simp [operation])
    obtain ⟨joins, -⟩ := q.joins_nothing clauses (by simp [operation]) (by simp [operation])
    obtain ⟨filter, assignments⟩ := q.inserts_only clauses operation
    constructor <;> simp [fields, having, orderBy, joins, filter, assignments]
  | update operation clauses _ setsListed values _ _ _ filterGiven filters =>
    obtain ⟨-, fields, -, having, orderBy⟩ := q.selects_nothing clauses (by simp [operation])
    obtain ⟨joins, -⟩ := q.joins_nothing clauses (by simp [operation]) (by simp [operation])
    exact {
      fields := by simp [fields]
      joins := by simp [joins]
      filter := forall_fst_option filterGiven fun x member => ⟨_, filters x member⟩
      having := by simp [having]
      orderBy := by simp [orderBy]
      assignments := forall_fst setsListed fun a member => ⟨_, values a member⟩ }
  | delete operation clauses _ filterGiven filters =>
    obtain ⟨-, fields, -, having, orderBy⟩ := q.selects_nothing clauses (by simp [operation])
    obtain ⟨joins, -⟩ := q.joins_nothing clauses (by simp [operation]) (by simp [operation])
    exact {
      fields := by simp [fields]
      joins := by simp [joins]
      filter := forall_fst_option filterGiven fun x member => ⟨_, filters x member⟩
      having := by simp [having]
      orderBy := by simp [orderBy]
      assignments := by simp [q.assigns_nothing clauses operation] }

theorem Query.parts_rendered {q : Query} (made : Renders c (.query q) s) :
    ∀ part ∈ q.parts, part.Rendered := by
  have clauses := q.clauses_render made
  simp only [Query.parts, List.cons_append, List.forall_mem_cons, List.forall_mem_append,
    List.forall_mem_map, Option.mem_toList, Part.Rendered, implies_true, true_and, and_true]
  exact ⟨⟨⟨⟨⟨fun f member => ⟨c, clauses.fields f member⟩,
    fun j member => ⟨c, clauses.joins j member⟩⟩,
    fun x member => ⟨.whereClause, false, c, clauses.filter x member⟩⟩,
    fun x member => ⟨.having, false, c, clauses.having x member⟩⟩,
    fun o member => ⟨c, clauses.orderBy o member⟩⟩,
    fun a member => ⟨c, clauses.assignments a member⟩⟩

theorem Expr.parts_rendered {e : Expr} (made : Renders c (.expr e) s) :
    ∀ part ∈ e.parts, part.Rendered := by
  cases e with
  | aggregate call =>
    simp only [Expr.parts, List.forall_mem_append, List.forall_mem_map, Option.mem_toList,
      Part.Rendered, implies_true, true_and]
    intro filter given
    cases made with
    | aggregate => cases given
    | filtered _ _ filters | chosen _ _ filters =>
      cases given
      exact ⟨.filter, false, c, _, filters⟩
  | case cases =>
    simp only [Expr.parts, List.forall_mem_map, Part.Rendered]
    cases made with
    | case _ branches | caseElse _ branches =>
      exact forall_fst rfl fun w member => ⟨c, _, branches w member⟩
  | window w =>
    simp only [Expr.parts, List.forall_mem_append, List.forall_mem_map, Part.Rendered,
      implies_true, true_and]
    cases made with
    | window _ _ listed order => exact forall_fst listed fun o member => ⟨c, _, order o member⟩
  | _ => simp [Expr.parts, Part.Rendered]

theorem Condition.parts_rendered {x : Condition} {scope : Scope} {nested : Bool}
    (made : Renders c (.condition scope nested x) s) : ∀ part ∈ x.parts, part.Rendered := by
  cases x with
  | group op items =>
    simp only [Condition.parts, List.forall_mem_map, Part.Rendered]
    cases made with
    | only single => exact List.forall_mem_singleton.mpr ⟨scope, nested, c, s, single⟩
    | group _ members => exact forall_fst rfl fun x member => ⟨scope, true, c, _, members x member⟩
  | subquery f op q =>
    simp only [Condition.parts, List.forall_mem_append, List.forall_mem_map,
      List.forall_mem_singleton, Part.Rendered, implies_true, true_and]
    cases made with
    | subquery _ _ _ inner => exact ⟨_, _, inner⟩
  | expression e op p =>
    cases made with
    | expression _ _ computed => exact List.forall_mem_singleton.mpr ⟨c, _, computed⟩
  | _ => simp [Condition.parts, Part.Rendered]

theorem Part.Rendered.parts {whole : Part} (rendered : whole.Rendered) :
    ∀ part ∈ whole.parts, part.Rendered := by
  cases whole with
  | query q =>
    obtain ⟨c, s, made⟩ := rendered
    exact q.parts_rendered made
  | expr e =>
    obtain ⟨c, s, made⟩ := rendered
    exact e.parts_rendered made
  | condition x =>
    obtain ⟨scope, nested, c, s, made⟩ := rendered
    exact x.parts_rendered made
  | statement statement =>
    obtain ⟨c, s, made⟩ := rendered
    cases statement with
    | query q => cases made with
      | query made => exact List.forall_mem_singleton.mpr ⟨c, s, made⟩
    | compound q => exact List.forall_mem_singleton.mpr ⟨c, s, made⟩
  | compound q =>
    obtain ⟨c, s, made⟩ := rendered
    cases made with
    | compound _ _ first listed _ more itemsListed order =>
      simp only [Part.parts, List.cons_append, List.forall_mem_cons, List.forall_mem_append,
        List.forall_mem_map]
      exact ⟨⟨c, _, first⟩, forall_fst listed fun p member => ⟨c, _, more p member⟩,
        forall_fst itemsListed fun o member => ⟨c, _, order o member⟩⟩
  | projected f =>
    obtain ⟨c, s, made⟩ := rendered
    cases made with
    | projected plain | aliased plain =>
      have expr : (Part.expr _).Rendered := ⟨c, _, plain⟩
      simpa [Part.parts, Part.Rendered] using expr
  | join j =>
    obtain ⟨c, s, made⟩ := rendered
    cases made with
    | crossJoin => simp [Part.parts, Part.Rendered]
    | join _ _ matching =>
      have on : (Part.condition _).Rendered := ⟨.joinOn, false, c, _, matching⟩
      simpa [Part.parts, Part.Rendered] using on
  | assignment a =>
    obtain ⟨target, value⟩ := a
    obtain ⟨c, s, made⟩ := rendered
    cases made with
    | assignedParam => simp [Part.parts, Part.Rendered]
    | assignedExpr _ computed => simpa [Part.parts, Part.Rendered] using ⟨c, _, computed⟩
  | ordered o =>
    obtain ⟨c, s, made⟩ := rendered
    cases made with
    | ordered plain | orderedNulls plain => simpa [Part.parts, Part.Rendered] using ⟨c, _, plain⟩
  | whenClause w =>
    obtain ⟨c, s, made⟩ := rendered
    cases made with
    | whenClause holds => exact List.forall_mem_singleton.mpr ⟨.caseWhen, false, c, _, holds⟩
  | operand o => cases o <;> simp [Part.parts, Operand.parts, Part.Rendered]
  | row => simp [Part.parts, Part.Rendered]
  | conflict o =>
    obtain ⟨target, action⟩ := o
    cases action <;> simp [Part.parts, Part.Rendered, or_imp, forall_and]
  | table => simp [Part.parts, Part.Rendered]
  | field f =>
    intro part member
    obtain ⟨kind, name, rfl⟩ := name_of_mem_field member
    trivial
  | name => simp [Part.parts]

end Members

theorem Part.Rendered.within {whole : Part} (rendered : whole.Rendered) {p : Part}
    (within : p.Within whole) : p.Rendered := by
  induction within with
  | refl => exact rendered
  | tail _ member ih => exact ih (rendered.parts _ member)

theorem Statement.rendered_of_toSql {statement : Statement} {options : RenderOptions} {r : Rendered}
    (sent : statement.toSql options = .ok r) : (Part.statement statement).Rendered := by
  obtain ⟨s, made, -⟩ := Statement.toSql_ok_iff.mp sent
  exact ⟨_, s, made⟩

end TypedSql
