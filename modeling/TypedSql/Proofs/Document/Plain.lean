import TypedSql.Proofs.Document.Saved

namespace TypedSql

namespace Json

theorem plainMembers_append {first rest : List (String × Json)} :
    PlainMembers (first ++ rest) ↔ PlainMembers first ∧ PlainMembers rest := by
  simp only [plainMembers_iff, List.forall_mem_append]

theorem plainMembers_member? {key : String} {value : Option Json}
    (given : ∀ j ∈ value, j.Plain) : PlainMembers (member? key value) := by
  cases value with
  | none => trivial
  | some j => exact ⟨given j rfl, trivial⟩

theorem plainMembers_map? {α : Type} {key : String} {write : α → Json} {value : Option α}
    (given : ∀ a ∈ value, (write a).Plain) : PlainMembers (member? key (value.map write)) :=
  plainMembers_member? (Option.forall_mem_map.mpr given)

theorem plainItems_map {α : Type} {write : α → Json} {as : List α}
    (each : ∀ a ∈ as, (write a).Plain) : PlainItems (as.map write) :=
  plainItems_iff.mpr (List.forall_mem_map.mpr each)

theorem plain_ofOption {α : Type} {write : α → Json} {value : Option α}
    (given : ∀ a ∈ value, (write a).Plain) : (ofOption write value).Plain := by
  cases value with
  | none => trivial
  | some a => exact given a rfl

theorem plain_getD {value : Option Json} (given : ∀ j ∈ value, j.Plain) :
    (value.getD .null).Plain := by
  cases value with
  | none => trivial
  | some j => exact given j rfl

theorem plain_ofUInt64 (i : UInt64) : (ofUInt64 i).Plain := i.toNat_lt_size

end Json

open Json (Plain PlainItems PlainMembers plainItems_map plainMembers_append plainMembers_member?
  plainMembers_map? plain_getD plain_ofOption plain_ofUInt64)

theorem Decoder.Restores.plain {α : Type} {decode : Decoder α} {j : Json} {a : α}
    (restores : decode.Restores (j.depth + 1) j a) : j.Plain :=
  (restores (Nat.lt_succ_self _)).plain

theorem plainMembers_param? (key : String) (p : Option Param) :
    PlainMembers (Json.member? key (p.map Param.toJson)) :=
  plainMembers_map? fun _ _ => trivial

theorem plainMembers_field? (key : String) (f : Option Field) :
    PlainMembers (Json.member? key (f.map Field.toJson)) :=
  plainMembers_map? fun f _ => f.restores.plain

mutual

theorem Expr.plain_toJson (e : Expr) : e.toJson.Plain := by
  cases e with
  | field f => exact ⟨f.restores.plain, trivial⟩
  | aggregate call => exact ⟨call.plain_toJson, trivial⟩
  | case cases => exact ⟨cases.plain_toJson, trivial⟩
  | coalesce operands =>
    have each : PlainItems (operands.map Operand.toJson) :=
      plainItems_map fun o _ => o.restores.plain
    exact ⟨each, trivial⟩
  | nullIf left right => exact ⟨⟨left.restores.plain, right.restores.plain, trivial⟩, trivial⟩
  | math call => exact ⟨call.restores.plain, trivial⟩
  | cast f type => exact ⟨⟨f.restores.plain, trivial, trivial⟩, trivial⟩
  | window call => exact ⟨call.plain_toJson, trivial⟩
  | binary f op p => exact ⟨⟨f.restores.plain, trivial, trivial, trivial⟩, trivial⟩
termination_by structural e

theorem AggregateCall.plain_toJson (call : AggregateCall) : call.toJson.Plain := by
  obtain ⟨kind, f, filter⟩ := call
  simp only [AggregateCall.toJson, Plain, plainMembers_append]
  exact ⟨⟨⟨trivial, trivial⟩, plainMembers_field? _ f⟩,
    plainMembers_member? (plain_conditionToJson? filter)⟩
termination_by structural call

theorem CaseExpr.plain_toJson (cases : CaseExpr) : cases.toJson.Plain := by
  obtain ⟨whens, otherwise⟩ := cases
  simp only [CaseExpr.toJson, Plain, plainMembers_append]
  exact ⟨⟨plain_whensToJson whens, trivial⟩, plainMembers_param? _ otherwise⟩
termination_by structural cases

theorem OrderBy.plain_toJson (item : OrderBy) : item.toJson.Plain := by
  obtain ⟨expr, direction, nulls⟩ := item
  simp only [OrderBy.toJson, Plain, plainMembers_append]
  exact ⟨⟨expr.plain_toJson, trivial, trivial⟩,
    plainMembers_map? fun _ _ => trivial⟩
termination_by structural item

theorem WindowSpec.plain_toJson (spec : WindowSpec) : spec.toJson.Plain := by
  obtain ⟨partitionBy, orderBy, frame⟩ := spec
  simp only [WindowSpec.toJson, Plain, plainMembers_append]
  exact ⟨⟨(fields_restore partitionBy).plain, plain_orderToJson orderBy, trivial⟩,
    plainMembers_map? fun f _ => f.restores.plain⟩
termination_by structural spec

theorem WindowCall.plain_toJson (call : WindowCall) : call.toJson.Plain := by
  obtain ⟨function, f, bucket, offset, fallback, window⟩ := call
  simp only [WindowCall.toJson, Plain, plainMembers_append]
  exact ⟨⟨⟨⟨⟨⟨function.restores.plain, trivial⟩, plainMembers_field? _ f⟩,
    plainMembers_param? _ bucket⟩, plainMembers_param? _ offset⟩, plainMembers_param? _ fallback⟩,
    window.plain_toJson, trivial⟩
termination_by structural call

theorem Condition.plain_toJson (x : Condition) : x.toJson.Plain := by
  cases x with
  | simple f op p =>
    simp only [Condition.toJson, Plain, plainMembers_append]
    exact ⟨⟨trivial, f.restores.plain, trivial, trivial⟩, plainMembers_param? _ p⟩
  | group op items => exact ⟨trivial, trivial, plain_conditionsToJson items, trivial⟩
  | fieldComparison left op right =>
    exact ⟨trivial, left.restores.plain, trivial, right.restores.plain, trivial⟩
  | subquery f op query =>
    simp only [Condition.toJson, Plain, plainMembers_append]
    exact ⟨⟨⟨trivial, trivial⟩, plainMembers_field? _ f⟩, trivial, query.plain_toJson, trivial⟩
  | between f low high negated =>
    exact ⟨trivial, f.restores.plain, trivial, trivial, trivial, trivial⟩
  | aggregate kind f op p =>
    simp only [Condition.toJson, Plain, plainMembers_append]
    exact ⟨⟨⟨trivial, trivial, trivial⟩, plainMembers_field? _ f⟩, trivial, trivial, trivial⟩
  | expression e op p => exact ⟨trivial, e.plain_toJson, trivial, trivial, trivial⟩
termination_by structural x

theorem AssignValue.plain_toJson (value : AssignValue) : value.toJson.Plain := by
  cases value with
  | param p => exact ⟨trivial, trivial⟩
  | expr e => exact ⟨e.plain_toJson, trivial⟩
termination_by structural value

theorem Query.plain_toJson (q : Query) : q.toJson.Plain := by
  obtain ⟨operation, table, distinct, distinctOn, fields, joins, filter, groupBy, having, orderBy,
    limit, offset, lock, rows, assignments, returning, onConflict⟩ := q
  have inserted : PlainItems (rows.map Row.toJson) :=
    plainItems_map fun r _ => r.restores.plain
  exact ⟨trivial, table.restores.plain, trivial, (fields_restore distinctOn).plain,
    plain_fieldExprsToJson fields, plain_joinsToJson joins,
    plain_getD (plain_conditionToJson? filter), (fields_restore groupBy).plain,
    plain_getD (plain_conditionToJson? having), plain_orderToJson orderBy,
    plain_ofOption fun i _ => plain_ofUInt64 i, plain_ofOption fun i _ => plain_ofUInt64 i,
    plain_ofOption fun l _ => l.restores.plain, inserted, plain_assignmentsToJson assignments,
    (fields_restore returning).plain, plain_ofOption fun o _ => o.restores.plain, trivial⟩
termination_by structural q

theorem plain_conditionToJson? (x : Option Condition) : ∀ j ∈ conditionToJson? x, j.Plain := by
  intro j given
  cases x with
  | none => cases given
  | some x =>
    cases given
    exact x.plain_toJson
termination_by structural x

theorem plain_conditionsToJson (items : List Condition) : PlainItems (conditionsToJson items) := by
  cases items with
  | nil => trivial
  | cons x rest => exact ⟨x.plain_toJson, plain_conditionsToJson rest⟩
termination_by structural items

theorem plain_whensToJson (whens : List WhenClause) : PlainItems (whensToJson whens) := by
  cases whens with
  | nil => trivial
  | cons w rest =>
    obtain ⟨condition, result⟩ := w
    exact ⟨⟨condition.plain_toJson, trivial, trivial⟩, plain_whensToJson rest⟩
termination_by structural whens

theorem plain_orderToJson (items : List OrderBy) : PlainItems (orderToJson items) := by
  cases items with
  | nil => trivial
  | cons item rest => exact ⟨item.plain_toJson, plain_orderToJson rest⟩
termination_by structural items

theorem plain_fieldExprsToJson (fields : List FieldExpr) :
    PlainItems (fieldExprsToJson fields) := by
  cases fields with
  | nil => trivial
  | cons f rest =>
    obtain ⟨expr, alias?⟩ := f
    simp only [fieldExprsToJson, PlainItems, Plain, plainMembers_append]
    exact ⟨⟨⟨expr.plain_toJson, trivial⟩, plainMembers_map? fun _ _ => trivial⟩,
      plain_fieldExprsToJson rest⟩
termination_by structural fields

theorem plain_joinsToJson (joins : List Join) : PlainItems (joinsToJson joins) := by
  cases joins with
  | nil => trivial
  | cons j rest =>
    obtain ⟨kind, table, on⟩ := j
    simp only [joinsToJson, PlainItems, Plain, plainMembers_append]
    exact ⟨⟨⟨trivial, table.restores.plain, trivial⟩,
      plainMembers_member? (plain_conditionToJson? on)⟩, plain_joinsToJson rest⟩
termination_by structural joins

theorem plain_assignmentsToJson (assignments : List Assignment) :
    PlainItems (assignmentsToJson assignments) := by
  cases assignments with
  | nil => trivial
  | cons a rest =>
    obtain ⟨target, value⟩ := a
    exact ⟨⟨target.restores.plain, value.plain_toJson, trivial⟩, plain_assignmentsToJson rest⟩
termination_by structural assignments

end

theorem CompoundQuery.plain_toJson (c : CompoundQuery) : c.toJson.Plain := by
  have parts : PlainItems (c.parts.map CompoundPart.toJson) :=
    plainItems_map fun p _ => ⟨trivial, p.query.plain_toJson, trivial⟩
  exact ⟨c.base.plain_toJson, parts, plain_orderToJson c.orderBy,
    plain_ofOption fun i _ => plain_ofUInt64 i, plain_ofOption fun i _ => plain_ofUInt64 i, trivial⟩

theorem Statement.plain_toJson (statement : Statement) : statement.toJson.Plain := by
  cases statement with
  | query q => exact ⟨q.plain_toJson, trivial⟩
  | compound c => exact ⟨c.plain_toJson, trivial⟩

end TypedSql
