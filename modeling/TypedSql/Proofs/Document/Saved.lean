import TypedSql.Document.Reader
import TypedSql.Proofs.Document.RestoredMembers
import TypedSql.Proofs.Tree.Gated
import TypedSql.Schema.Document

namespace TypedSql

open Json (Reading)
open Members.Restores (required optional nullable defaulted)

section Tags

class LawfulTagged (α : Type) [Tagged α] : Prop where
  found (a : α) : ((Tagged.all.map fun b => Variant.plain (Tagged.tag b) b).find? fun v =>
    v.tag == Tagged.tag a) = some (.plain (Tagged.tag a) a)

instance : LawfulTagged Dialect := ⟨fun a => by cases a <;> rfl⟩
instance : LawfulTagged PlaceholderStyle := ⟨fun a => by cases a <;> rfl⟩
instance : LawfulTagged Operation := ⟨fun a => by cases a <;> rfl⟩
instance : LawfulTagged Connective := ⟨fun a => by cases a <;> rfl⟩
instance : LawfulTagged Direction := ⟨fun a => by cases a <;> rfl⟩
instance : LawfulTagged NullsPlacement := ⟨fun a => by cases a <;> rfl⟩
instance : LawfulTagged Operator := ⟨fun a => by cases a <;> rfl⟩
instance : LawfulTagged JoinKind := ⟨fun a => by cases a <;> rfl⟩
instance : LawfulTagged SetOperation := ⟨fun a => by cases a <;> rfl⟩
instance : LawfulTagged LockStrength := ⟨fun a => by cases a <;> rfl⟩
instance : LawfulTagged LockWait := ⟨fun a => by cases a <;> rfl⟩
instance : LawfulTagged AggregateKind := ⟨fun a => by cases a <;> rfl⟩
instance : LawfulTagged MathFunction := ⟨fun a => by cases a <;> rfl⟩
instance : LawfulTagged CastType := ⟨fun a => by cases a <;> rfl⟩
instance : LawfulTagged BinaryOp := ⟨fun a => by cases a <;> rfl⟩
instance : LawfulTagged FrameUnits := ⟨fun a => by cases a <;> rfl⟩

theorem Tagged.restores {α : Type} [Tagged α] [LawfulTagged α] {n : Nat} (a : α) :
    Decoder.Restores n Tagged.decode (Tagged.toJson a) a :=
  .choice_plain (LawfulTagged.found a)

end Tags

section Fields
variable {n : Nat}

theorem Param.restores (p : Param) : Param.decode.Restores n p.toJson p := by
  refine .gated ?_
  unfold Param.new
  split
  · rfl
  · rename_i e barred
    cases barred.symm.trans p.admitted

theorem JsonKey.restores (k : JsonKey) : JsonKey.decode.Restores n (.str k.name) k := by
  refine .gated ?_
  unfold JsonKey.new
  split
  · rfl
  · rename_i e barred
    cases barred.symm.trans k.admitted

theorem Alias.restores {a : Alias} (word : Gate.outputAlias.Admits a.name) :
    Alias.decode.Restores n a.toJson a := by
  refine .gated ?_
  simp only [Gate.Admits] at word
  simp only [Alias.ofWord, word]
  rfl

theorem TableAlias.restores (a : TableAlias) : TableAlias.decode.Restores n a.toJson a := by
  refine fun _ => ⟨trivial, nofun, fun held => ?_⟩
  have letter : Decoder.char ⟨a.toJson.reading, held⟩ = .ok a.letter := by
    have spelled : a.display.toList = [a.letter] := by simp [TableAlias.display]
    have text : Decoder.string ⟨a.toJson.reading, held⟩ = .ok a.display := rfl
    simp only [Decoder.char, text, Except.bind_eq_ok]
    exact ⟨_, rfl, by simp [spelled]⟩
  have made : TableAlias.new a.letter = .ok a := by
    rw [TableAlias.new, dif_pos a.admitted]
  simp only [TableAlias.decode, letter, Except.bind_eq_ok]
  exact ⟨_, rfl, by rw [made]; rfl⟩

theorem Table.restores (t : Table) : Table.decode.Restores n t.toJson t :=
  (Members.Restores.object (.seq (.map (required .string))
    (optional fun a _ => a.restores)) (of_decide_eq_true rfl)).lower

theorem Qualifier.restores (q : Qualifier) : Qualifier.decode.Restores n q.toJson q := by
  refine Decoder.Restores.lower ?_
  cases q with
  | table name => exact .choice rfl (.map .string)
  | letter a => exact .choice rfl (.map a.restores)

theorem PathSegment.restores (s : PathSegment) : PathSegment.decode.Restores n s.toJson s := by
  refine Decoder.Restores.lower ?_
  cases s with
  | key k => exact .choice rfl (.map k.restores)
  | index i => exact .choice rfl (.map .uint32)

theorem JsonPath.restores (p : JsonPath) : JsonPath.decode.Restores n p.toJson p :=
  (Members.Restores.object (.seq (.map (required (Decoder.Restores.list fun s _ => s.restores).lower))
    (defaulted .bool)) (of_decide_eq_true rfl)).lower

theorem Field.restores (f : Field) : Field.decode.Restores n f.toJson f :=
  (Members.Restores.object (.seq (.seq (.map (required .string))
    (optional fun q _ => q.restores)) (optional fun p _ => p.restores)) (of_decide_eq_true rfl)).lower

theorem fields_restore (fields : List Field) :
    (Decoder.list Field.decode).Restores n (fieldsToJson fields) fields :=
  (Decoder.Restores.list fun f _ => f.restores).lower

theorem Operand.restores (o : Operand) : Operand.decode.Restores n o.toJson o := by
  refine Decoder.Restores.lower ?_
  cases o with
  | field f => exact .choice rfl (.map f.restores)
  | param p => exact .choice rfl (.map p.restores)

theorem Operand.restores_pair (left right : Operand) :
    Operand.decodePair.Restores n (.arr [left.toJson, right.toJson]) (left, right) := by
  intro shallow
  simp only [Json.depth, Json.depthOfItems] at shallow
  have first := left.restores (n := n) (by omega)
  have second := right.restores (n := n) (by omega)
  refine ⟨⟨first.plain, second.plain, trivial⟩, nofun, fun held => ?_⟩
  simp only [Operand.decodePair, Json.reading, Json.readingItems, first.read, Except.bind_eq_ok]
  refine ⟨left, rfl, right, second.read held, ?_⟩
  rfl

theorem MathCall.restores (m : MathCall) : MathCall.decode.Restores n m.toJson m :=
  (Members.Restores.object (.seq (.seq (.map (required (Tagged.restores _)))
    (required m.field.restores)) (optional fun p _ => p.restores)) (of_decide_eq_true rfl)).lower

theorem FrameBound.restores (b : FrameBound) : FrameBound.decode.Restores n b.toJson b := by
  refine Decoder.Restores.lower ?_
  cases b with
  | preceding i => exact .choice rfl (.map .uint64)
  | following i => exact .choice rfl (.map .uint64)
  | _ => exact .choice_plain rfl

theorem Frame.restores (f : Frame) : Frame.decode.Restores n f.toJson f :=
  (Members.Restores.object (.seq (.seq (.map (required (Tagged.restores _)))
    (required f.start.restores)) (optional fun b _ => b.restores)) (of_decide_eq_true rfl)).lower

theorem WindowFunction.restores (f : WindowFunction) :
    WindowFunction.decode.Restores n f.toJson f := by
  refine Decoder.Restores.lower ?_
  cases f with
  | aggregate kind => exact .choice rfl (.map (Tagged.restores kind))
  | _ => exact .choice_plain rfl

theorem RowLock.restores (l : RowLock) : RowLock.decode.Restores n l.toJson l :=
  (Members.Restores.object (.seq (.map (required (Tagged.restores _)))
    (defaulted (Tagged.restores _))) (of_decide_eq_true rfl)).lower

theorem Row.restores (r : Row) : Row.decode.Restores n r.toJson r :=
  (Decoder.Restores.nameMap fun p _ => p.restores).lower

theorem ConflictValue.restores (v : ConflictValue) :
    ConflictValue.decode.Restores n v.toJson v := by
  refine Decoder.Restores.lower ?_
  cases v with
  | param p => exact .choice rfl (.map p.restores)
  | excluded => exact .choice_plain rfl

theorem ConflictAction.restores (a : ConflictAction) :
    ConflictAction.decode.Restores n a.toJson a := by
  refine Decoder.Restores.lower ?_
  cases a with
  | doNothing => exact .choice_plain rfl
  | doUpdate updates =>
    exact .choice rfl (.map (Decoder.Restores.nameMap fun v _ => v.restores).lower)

theorem OnConflict.restores (o : OnConflict) : OnConflict.decode.Restores n o.toJson o :=
  (Members.Restores.object (.seq (.map (defaulted (fields_restore _)))
    (required o.action.restores)) (of_decide_eq_true rfl)).lower

end Fields

def Spelled (n : GatedName) : Prop := n.1 = .outputAlias → n.1.Admits n.2

structure TreeDecoders.Restores (n : Nat) (d : TreeDecoders) : Prop where
  expr : ∀ e, Among Expr.gated Spelled e → d.expr.Restores n e.toJson e
  condition : ∀ x, Among Condition.gated Spelled x → d.condition.Restores n x.toJson x
  query : ∀ q, Among Query.gated Spelled q → d.query.Restores n q.toJson q

section Lists

theorem eq_map {α β : Type} {f : List α → List β} {g : α → β} (nil : f [] = [])
    (cons : ∀ a rest, f (a :: rest) = g a :: f rest) (as : List α) : f as = as.map g := by
  induction as with
  | nil => exact nil
  | cons a rest ih => rw [cons, ih, List.map_cons]

theorem conditionToJson?_eq (x : Option Condition) :
    conditionToJson? x = x.map Condition.toJson := by cases x <;> rfl

theorem conditionsToJson_eq (items : List Condition) :
    conditionsToJson items = items.map Condition.toJson := eq_map rfl (fun _ _ => rfl) items

theorem orderToJson_eq (items : List OrderBy) : orderToJson items = items.map OrderBy.toJson :=
  eq_map rfl (fun _ _ => rfl) items

theorem whensToJson_eq (whens : List WhenClause) :
    whensToJson whens = whens.map fun w =>
      .obj [("condition", w.condition.toJson), ("then", w.result.toJson)] :=
  eq_map rfl (fun ⟨_, _⟩ _ => rfl) whens

theorem fieldExprsToJson_eq (fields : List FieldExpr) :
    fieldExprsToJson fields = fields.map FieldExpr.toJson := eq_map rfl (fun ⟨_, _⟩ _ => rfl) fields

theorem joinsToJson_eq (joins : List Join) : joinsToJson joins = joins.map Join.toJson := by
  refine eq_map rfl (fun ⟨kind, table, on⟩ rest => ?_) joins
  rw [joinsToJson, Join.toJson, conditionToJson?_eq]

theorem assignmentsToJson_eq (assignments : List Assignment) :
    assignmentsToJson assignments = assignments.map Assignment.toJson :=
  eq_map rfl (fun ⟨_, _⟩ _ => rfl) assignments

end Lists

namespace TreeDecoders
variable {n : Nat} {d : TreeDecoders} (restores : d.Restores n)
include restores

theorem Restores.whenClause {w : WhenClause} (spelled : Among WhenClause.gated Spelled w) :
    d.whenClause.Restores n
      (.obj [("condition", w.condition.toJson), ("then", w.result.toJson)]) w := by
  obtain ⟨condition, result⟩ := w
  obtain ⟨spelled, -⟩ := List.forall_mem_append.mp spelled
  exact (Members.Restores.object (.seq (.map (required (restores.condition _ spelled)))
    (required result.restores)) (of_decide_eq_true rfl)).lower

theorem Restores.caseExpr {c : CaseExpr} (spelled : Among CaseExpr.gated Spelled c) :
    d.caseExpr.Restores n c.toJson c := by
  obtain ⟨whens, otherwise⟩ := c
  obtain ⟨branches, -⟩ := List.forall_mem_append.mp spelled
  rw [whensGated_eq] at branches
  have each := among_flatMap.mp branches
  rw [CaseExpr.toJson, whensToJson_eq]
  exact (Members.Restores.object (.seq (.map (required
    (Decoder.Restores.list fun w member => restores.whenClause (each w member)).lower))
    (optional fun p _ => p.restores)) (of_decide_eq_true rfl)).lower

theorem Restores.aggregateCall {call : AggregateCall}
    (spelled : Among AggregateCall.gated Spelled call) :
    d.aggregateCall.Restores n call.toJson call := by
  obtain ⟨kind, f, filter⟩ := call
  obtain ⟨-, filters⟩ := List.forall_mem_append.mp spelled
  rw [optionalGated_eq, among_elim] at filters
  rw [AggregateCall.toJson, conditionToJson?_eq]
  exact (Members.Restores.object (.seq (.seq (.map (required (Tagged.restores _)))
    (optional fun f _ => f.restores)) (optional fun x member => restores.condition x (filters x member)))
    (of_decide_eq_true rfl)).lower

theorem Restores.orderBy {item : OrderBy} (spelled : Among OrderBy.gated Spelled item) :
    d.orderBy.Restores n item.toJson item := by
  obtain ⟨expr, direction, nulls⟩ := item
  exact (Members.Restores.object (.seq (.seq (.map (required (restores.expr _ spelled)))
    (defaulted (Tagged.restores _))) (optional fun p _ => Tagged.restores p))
    (of_decide_eq_true rfl)).lower

theorem Restores.orderItems {items : List OrderBy}
    (spelled : ∀ item ∈ items, Among OrderBy.gated Spelled item) :
    (Decoder.list d.orderBy).Restores n (.arr (orderToJson items)) items := by
  rw [orderToJson_eq]
  exact (Decoder.Restores.list fun item member => restores.orderBy (spelled item member)).lower

theorem Restores.windowSpec {w : WindowSpec} (spelled : Among WindowSpec.gated Spelled w) :
    d.windowSpec.Restores n w.toJson w := by
  obtain ⟨partitionBy, orderBy, frame⟩ := w
  obtain ⟨-, ordered⟩ := List.forall_mem_append.mp spelled
  rw [orderGated_eq, among_flatMap] at ordered
  exact (Members.Restores.object (.seq (.seq (.map (defaulted (fields_restore _)))
    (defaulted (restores.orderItems ordered))) (optional fun f _ => f.restores))
    (of_decide_eq_true rfl)).lower

theorem Restores.windowCall {call : WindowCall} (spelled : Among WindowCall.gated Spelled call) :
    d.windowCall.Restores n call.toJson call := by
  obtain ⟨function, f, bucket, offset, fallback, window⟩ := call
  obtain ⟨-, inside⟩ := List.forall_mem_append.mp spelled
  exact (Members.Restores.object (.seq (.seq (.seq (.seq (.seq (.map (required function.restores))
    (optional fun f _ => f.restores)) (optional fun p _ => p.restores))
    (optional fun p _ => p.restores)) (optional fun p _ => p.restores))
    (defaulted (restores.windowSpec inside))) (of_decide_eq_true rfl)).lower

theorem Restores.fieldExpr {f : FieldExpr} (spelled : Among FieldExpr.gated Spelled f) :
    d.fieldExpr.Restores n f.toJson f := by
  obtain ⟨expr, alias?⟩ := f
  obtain ⟨inner, output⟩ := List.forall_mem_append.mp spelled
  have words : ∀ a ∈ alias?, Gate.outputAlias.Admits a.name := fun a member =>
    among_elim.mp output a member _ (List.mem_singleton_self _) rfl
  exact (Members.Restores.object (.seq (.map (required (restores.expr _ inner)))
    (optional fun a member => Alias.restores (words a member))) (of_decide_eq_true rfl)).lower

theorem Restores.join {j : Join} (spelled : Among Join.gated Spelled j) :
    d.join.Restores n j.toJson j := by
  obtain ⟨kind, table, on⟩ := j
  obtain ⟨-, conditions⟩ := List.forall_mem_append.mp spelled
  rw [optionalGated_eq, among_elim] at conditions
  exact (Members.Restores.object (.seq (.seq (.map (required (Tagged.restores _)))
    (required table.restores)) (optional fun x member => restores.condition x (conditions x member)))
    (of_decide_eq_true rfl)).lower

theorem Restores.assignValue {v : AssignValue} (spelled : Among AssignValue.gated Spelled v) :
    d.assignValue.Restores n v.toJson v := by
  refine Decoder.Restores.lower ?_
  cases v with
  | param p => exact .choice rfl (.map p.restores)
  | expr e => exact .choice rfl (.map (restores.expr e spelled))

theorem Restores.assignment {a : Assignment} (spelled : Among Assignment.gated Spelled a) :
    d.assignment.Restores n a.toJson a := by
  obtain ⟨target, value⟩ := a
  obtain ⟨-, assigned⟩ := List.forall_mem_append.mp spelled
  exact (Members.Restores.object (.seq (.map (required target.restores))
    (required (restores.assignValue assigned))) (of_decide_eq_true rfl)).lower

theorem Restores.exprStep {e : Expr} (spelled : Among Expr.gated Spelled e) :
    d.exprStep.Restores (n + 1) e.toJson e := by
  cases e with
  | field f => exact .choice rfl (.map f.restores)
  | aggregate call => exact .choice rfl (.map (restores.aggregateCall spelled))
  | case cases => exact .choice rfl (.map (restores.caseExpr spelled))
  | coalesce operands =>
    exact .choice rfl (.map (Decoder.Restores.list fun o _ => o.restores).lower)
  | nullIf left right =>
    refine .choice rfl ?_
    exact Decoder.Restores.map (left.restores_pair right)
  | math call => exact .choice rfl (.map call.restores)
  | cast f type =>
    exact .choice rfl (Members.Restores.object (.seq (.map (required f.restores))
      (required (Tagged.restores type))) (by decide)).lower
  | window call => exact .choice rfl (.map (restores.windowCall spelled))
  | binary f op p =>
    exact .choice rfl (Members.Restores.object (.seq (.seq (.map (required f.restores))
      (required (Tagged.restores op))) (required p.restores)) (by decide)).lower

omit restores in
theorem restores_typed {name : String} {m : Members Condition} {written : List (String × Json)}
    {x : Condition} (known : d.conditionTypes.lookup name = some m)
    (restores : m.Restores n written x) (distinct : m.names.Nodup) (apart : "type" ∉ m.names) :
    d.conditionStep.Restores (n + 1) (.obj (("type", .str name) :: written)) x := by
  intro shallow
  obtain ⟨-, below⟩ := List.forall_mem_cons.mp (Json.depth_lt_of_obj shallow)
  have members := (restores distinct below).1
  have type : d.conditionType.Restores n (.str name) m := by
    refine fun _ => ⟨trivial, nofun, fun held => ?_⟩
    simp [conditionType, Json.reading, known]
  have told (held : Bool) : Decoder.members Reading.isClean
      (Members.required "type" d.conditionType) held
      (Json.readingMembers (("type", .str name) :: written)) = .ok m := by
    have strange : ∀ e ∈ written, e.1 ∉ ["type"] := fun e member named =>
      apart (List.mem_singleton.mp named ▸ (members e member).1)
    have only : Members.under ["type"] (("type", .str name) :: written) = [("type", .str name)] := by
      show Members.under ["type"] ([("type", .str name)] ++ written) = _
      rw [Members.under_append, Members.under_strange strange]
      rfl
    refine (required type).read_members (of_decide_eq_true rfl) ?_ only
      (fun e _ => Json.isClean_reading e.2) held
    exact List.forall_mem_singleton.mpr (Json.depth_lt_of_obj shallow _ List.mem_cons_self)
  have inside : Decoder.members Reading.isSound m true
      (Json.readingMembers (("type", .str name) :: written)) = .ok x := by
    have others : Members.under m.names (("type", .str name) :: written) = written := by
      show Members.under m.names ([("type", .str name)] ++ written) = _
      rw [Members.under_append, Members.under_known fun e member => (members e member).1,
        Members.under_strange (List.forall_mem_singleton.mpr apart), List.nil_append]
    exact restores.read_members distinct below others (fun e _ => Json.isSound_reading e.2) true
  refine ⟨⟨trivial, ?_⟩, nofun, fun held => ?_⟩
  · rw [Json.plainMembers_iff]
    exact fun e member => (members e member).2
  · simp only [conditionStep, Json.reading, Except.bind_eq_ok]
    exact ⟨m, told held, inside⟩

theorem Restores.conditionStep {x : Condition} (spelled : Among Condition.gated Spelled x) :
    d.conditionStep.Restores (n + 1) x.toJson x := by
  cases x with
  | simple f op p =>
    exact restores_typed rfl (.seq (.seq (.map (required f.restores))
      (required (Tagged.restores op))) (optional fun p _ => p.restores))
      (of_decide_eq_true rfl) (of_decide_eq_true rfl)
  | group op items =>
    have each : ∀ x ∈ items, Among Condition.gated Spelled x := by
      rw [← among_flatMap, ← conditionsGated_eq]
      exact spelled
    rw [Condition.toJson, conditionsToJson_eq]
    exact restores_typed rfl (.seq (.map (required (Tagged.restores op))) (required
      (Decoder.Restores.list fun x member => restores.condition x (each x member)).lower))
      (of_decide_eq_true rfl) (of_decide_eq_true rfl)
  | fieldComparison left op right =>
    exact restores_typed rfl (.seq (.seq (.map (required left.restores))
      (required (Tagged.restores op))) (required right.restores))
      (of_decide_eq_true rfl) (of_decide_eq_true rfl)
  | subquery f op query =>
    obtain ⟨-, inner⟩ := List.forall_mem_append.mp spelled
    exact restores_typed rfl (.of_eq (.seq (.seq (.map (optional fun f _ => f.restores))
      (required (Tagged.restores op))) (required (restores.query query inner)))
      (List.append_assoc _ _ _))
      (of_decide_eq_true rfl) (of_decide_eq_true rfl)
  | between f low high negated =>
    exact restores_typed rfl (.seq (.seq (.seq (.map (required f.restores))
      (required low.restores)) (required high.restores)) (defaulted .bool))
      (of_decide_eq_true rfl) (of_decide_eq_true rfl)
  | aggregate kind f op p =>
    exact restores_typed rfl (.of_eq (.seq (.seq (.seq (.map (required (Tagged.restores kind)))
      (optional fun f _ => f.restores)) (required (Tagged.restores op))) (required p.restores))
      (List.append_assoc _ _ _))
      (of_decide_eq_true rfl) (of_decide_eq_true rfl)
  | expression e op p =>
    obtain ⟨inner, -⟩ := List.forall_mem_append.mp spelled
    exact restores_typed rfl (.seq (.seq (.map (required (restores.expr e inner)))
      (required (Tagged.restores op))) (required p.restores))
      (of_decide_eq_true rfl) (of_decide_eq_true rfl)

theorem Restores.queryStep {q : Query} (spelled : Among Query.gated Spelled q) :
    d.queryStep.Restores (n + 1) q.toJson q := by
  obtain ⟨operation, table, distinct, distinctOn, fields, joins, filter, groupBy, having, orderBy,
    limit, offset, lock, rows, assignments, returning, onConflict⟩ := q
  simp only [Among, Query.gated, List.forall_mem_append, among_elim, among_flatMap,
    projectedGated_eq, joinsGated_eq, optionalGated_eq, orderGated_eq, assignmentsGated_eq]
    at spelled
  obtain ⟨⟨⟨⟨⟨⟨⟨⟨⟨⟨⟨-, -⟩, projected⟩, joined⟩, filters⟩, -⟩, havings⟩, ordered⟩, -⟩, assigned⟩, -⟩, -⟩ :=
    spelled
  have nulled (x : Option Condition) : (conditionToJson? x).getD .null = .ofOption Condition.toJson x := by
    cases x <;> rfl
  rw [Query.toJson, fieldExprsToJson_eq, joinsToJson_eq, assignmentsToJson_eq, nulled, nulled]
  refine Members.Restores.object (.of_eq (.seq (.seq (.seq (.seq (.seq (.seq (.seq (.seq (.seq (.seq
    (.seq (.seq (.seq (.seq (.seq (.seq (.map
    (required (Tagged.restores _))) (required table.restores))
    (defaulted .bool))
    (defaulted (fields_restore _)))
    (defaulted (Decoder.Restores.list fun f member => restores.fieldExpr (projected f member)).lower))
    (defaulted (Decoder.Restores.list fun j member => restores.join (joined j member)).lower))
    (nullable fun x member => restores.condition x (filters x member)))
    (defaulted (fields_restore _)))
    (nullable fun x member => restores.condition x (havings x member)))
    (defaulted (restores.orderItems ordered)))
    (nullable fun _ _ => .uint64)) (nullable fun _ _ => .uint64))
    (nullable fun l _ => l.restores))
    (defaulted (Decoder.Restores.list fun r _ => r.restores).lower))
    (defaulted (Decoder.Restores.list fun a member => restores.assignment (assigned a member)).lower))
    (defaulted (fields_restore _)))
    (nullable fun o _ => o.restores)) ?_) ?_
  · simp only [List.cons_append, List.nil_append]
  · show List.Nodup ["operation", "table", "distinct", "distinct_on", "fields", "joins", "filter",
      "group_by", "having", "order_by", "limit", "offset", "lock", "rows", "assignments",
      "returning", "on_conflict"]
    decide

omit restores in
/-- However deep a document is, what it was written for is given back. -/
theorem ofDepth_restores (n : Nat) : (ofDepth n).Restores n := by
  induction n with
  | zero => exact ⟨fun _ _ => nofun, fun _ _ => nofun, fun _ _ => nofun⟩
  | succ n ih =>
    exact ⟨fun _ => ih.exprStep, fun _ => ih.conditionStep, fun _ => ih.queryStep⟩

omit restores in
theorem decoding_restores {α : Type} {decoder : TreeDecoders → Decoder α} {j : Json} {a : α}
    (each : ∀ (n : Nat) (d : TreeDecoders), d.Restores n → (decoder d).Restores n j a) :
    (decoding decoder).Restores n j a := by
  intro _
  have restored := each _ _ (ofDepth_restores (j.depth + 1)) (Nat.lt_succ_self _)
  refine ⟨restored.plain, restored.present, fun held => ?_⟩
  rw [decoding, Json.depth_reading]
  exact restored.read held

end TreeDecoders

section Documents
open TreeDecoders
variable {n : Nat}

theorem Query.restores {q : Query} (spelled : Among Query.gated Spelled q) :
    Query.decode.Restores n q.toJson q :=
  decoding_restores fun _ _ restores => restores.query q spelled

theorem OrderBy.restores {item : OrderBy} (spelled : Among OrderBy.gated Spelled item) :
    OrderBy.decode.Restores n item.toJson item :=
  decoding_restores fun _ _ restores => restores.orderBy spelled

theorem CompoundPart.restores {p : CompoundPart} (spelled : Among CompoundPart.gated Spelled p) :
    CompoundPart.decode.Restores n p.toJson p :=
  (Members.Restores.object (.seq (.map (required (Tagged.restores _)))
    (required (Query.restores spelled))) (by decide)).lower

theorem CompoundQuery.restores {c : CompoundQuery}
    (spelled : Among CompoundQuery.gated Spelled c) :
    CompoundQuery.decode.Restores n c.toJson c := by
  obtain ⟨base, parts, orderBy, limit, offset⟩ := c
  simp only [Among, CompoundQuery.gated, List.forall_mem_append, among_flatMap] at spelled
  obtain ⟨⟨first, others⟩, ordered⟩ := spelled
  rw [CompoundQuery.toJson, orderToJson_eq]
  exact (Members.Restores.object (.seq (.seq (.seq (.seq (.map (required (Query.restores first)))
    (defaulted (Decoder.Restores.list fun p member => CompoundPart.restores (others p member)).lower))
    (defaulted (Decoder.Restores.list fun o member => OrderBy.restores (ordered o member)).lower))
    (nullable fun _ _ => .uint64)) (nullable fun _ _ => .uint64)) (by decide)).lower

theorem Statement.restores {statement : Statement}
    (spelled : Among Statement.gated Spelled statement) :
    Statement.decode.Restores n statement.toJson statement := by
  refine Decoder.Restores.lower ?_
  cases statement with
  | query q => exact .choice rfl (.map (Query.restores spelled))
  | compound c => exact .choice rfl (.map (CompoundQuery.restores spelled))

theorem RenderOptions.restores (options : RenderOptions) :
    RenderOptions.decode.Restores n options.toJson options :=
  (Members.Restores.object (.seq (.seq (.map (defaulted (Tagged.restores _)))
    (defaulted .uint64)) (defaulted (Tagged.restores _))) (by decide)).lower

theorem ColumnDef.restores (c : ColumnDef) : ColumnDef.decode.Restores n c.toJson c :=
  (Members.Restores.object (.seq (.seq (.seq (.seq (.seq (.seq (.map (required .string))
    (required .string)) (defaulted .bool)) (defaulted .bool)) (defaulted .bool))
    (Members.Restores.nullable fun _ _ => .string))
    (Members.Restores.nullable fun _ _ => .string)) (by decide)).lower

theorem TableDef.restores (t : TableDef) : TableDef.decode.Restores n t.toJson t :=
  (Members.Restores.object (.seq (.map (required .string))
    (defaulted (Decoder.Restores.list fun c _ => c.restores).lower)) (by decide)).lower

theorem Schema.restores (s : Schema) : Schema.decode.Restores n s.toJson s :=
  (Members.Restores.object (.seq (.map
    (defaulted (Decoder.Restores.list fun t _ => t.restores).lower))
    (defaulted (Decoder.Restores.list fun _ _ => .string).lower)) (by decide)).lower

end Documents
end TypedSql
