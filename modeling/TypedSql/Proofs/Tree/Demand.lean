import TypedSql.Dialect.Capability
import TypedSql.Proofs.Tree.Part

namespace TypedSql

/-- What the dialects have no way to express. -/
def Dialect.lacks : Dialect → Feature → Bool
  | .postgres, _ => false
  | .mySql, .vectorOperator _ | .mySql, .distinctOn | .mySql, .nullsOrdering
  | .mySql, .returning | .mySql, .join .full | .mySql, .cast .boolean => true
  | .sqlite, .jsonPath | .sqlite, .vectorOperator _ | .sqlite, .distinctOn | .sqlite, .rowLock
  | .sqlite, .setOperation .intersectAll | .sqlite, .setOperation .exceptAll
  | .sqlite, .cast .json => true
  | .sqlServer, .jsonPath | .sqlServer, .vectorOperator _ | .sqlServer, .distinctOn
  | .sqlServer, .nullsOrdering | .sqlServer, .onConflict
  | .sqlServer, .setOperation .intersectAll | .sqlServer, .setOperation .exceptAll
  | .sqlServer, .cast .json | .sqlServer, .qualifiedOutput => true
  | _, _ => false

theorem Dialect.lacks_eq {d : Dialect} {feature : Feature}
    (spoken : feature ≠ .numberedPlaceholders) : d.lacks feature = !d.supports feature := by
  cases feature with
  | numberedPlaceholders => exact absurd rfl spoken
  | join kind => cases d <;> cases kind <;> rfl
  | setOperation op => cases d <;> cases op <;> rfl
  | cast type => cases d <;> cases type <;> rfl
  | _ => cases d <;> rfl

def Query.asks (q : Query) : List Feature :=
  (if q.distinctOn.isEmpty then [] else [.distinctOn]) ++
  (if q.lock.isSome then [.rowLock] else []) ++
  (if q.returning.isEmpty then [] else [.returning]) ++
  (if q.returning.any fun f => f.qualifier.isSome then [.qualifiedOutput] else []) ++
  (if q.onConflict.isSome then [.onConflict] else [])

/-- What a constituent itself asks of the dialect, apart from what it contains. -/
def Part.asks : Part → List Feature
  | .field f => if f.path.isSome then [.jsonPath] else []
  | .expr (.binary _ op _) => if op.isVector then [.vectorOperator op] else []
  | .expr (.cast _ type) => [.cast type]
  | .ordered o => if o.nulls.isSome then [.nullsOrdering] else []
  | .join j => [.join j.kind]
  | .query q => q.asks
  | .compound q => q.parts.map fun part => .setOperation part.op
  | _ => []

/-- What a constituent asks of the dialect at any depth. -/
inductive Part.Demands : Part → Feature → Prop where
  | own {p : Part} {feature} (asked : feature ∈ p.asks) : Demands p feature
  | within {p part : Part} {feature} (member : part ∈ p.parts) (demands : Demands part feature) :
      Demands p feature

/-- That a constituent somewhere uses what the dialect has no way to express. -/
def Part.Exceeds (d : Dialect) (p : Part) : Prop :=
  ∃ feature, p.Demands feature ∧ d.lacks feature = true

section Exceeds
variable {d : Dialect}

theorem Part.exceeds_iff {p : Part} :
    p.Exceeds d ↔ (∃ feature ∈ p.asks, d.lacks feature = true) ∨ ∃ part ∈ p.parts, part.Exceeds d := by
  constructor
  · rintro ⟨feature, demands, lacking⟩
    cases demands with
    | own asked => exact .inl ⟨feature, asked, lacking⟩
    | within member demands => exact .inr ⟨_, member, feature, demands, lacking⟩
  · rintro (⟨feature, asked, lacking⟩ | ⟨part, member, feature, demands, lacking⟩)
    · exact ⟨feature, .own asked, lacking⟩
    · exact ⟨feature, .within member demands, lacking⟩

@[simp] theorem Part.exceeds_name {kind : NameKind} {n : String} :
    (Part.name kind n).Exceeds d ↔ False := by
  rw [exceeds_iff]
  simp [asks, parts]

@[simp] theorem Part.exceeds_table {t : Table} : (Part.table t).Exceeds d ↔ False := by
  rw [exceeds_iff]
  simp [asks, parts]

@[simp] theorem Part.exceeds_row {r : Row} : (Part.row r).Exceeds d ↔ False := by
  rw [exceeds_iff]
  simp [asks, parts]

@[simp] theorem Part.exceeds_field {f : Field} :
    (Part.field f).Exceeds d ↔ f.path.isSome = true ∧ d.lacks .jsonPath = true := by
  have names : ¬∃ part ∈ (Part.field f).parts, part.Exceeds d := by
    rintro ⟨part, member, exceeds⟩
    obtain ⟨kind, n, rfl⟩ := name_of_mem_field member
    exact exceeds_name.mp exceeds
  rw [exceeds_iff, or_iff_left names, asks]
  by_cases entered : f.path.isSome = true <;> simp [entered]

theorem Field.not_exceeds {f : Field} (bare : f.isPlain = true) : ¬(Part.field f).Exceeds d := by
  simp only [isPlain, Bool.and_eq_true, Option.isNone_iff_eq_none] at bare
  simp [bare.2]

theorem Part.exceeds_query {q : Query} : (Part.query q).Exceeds d ↔
    ((q.distinctOn ≠ [] ∧ d.lacks .distinctOn = true) ∨ ∃ f ∈ q.distinctOn, (field f).Exceeds d) ∨
    (∃ f ∈ q.fields, (projected f).Exceeds d) ∨
    (q.lock.isSome = true ∧ d.lacks .rowLock = true) ∨
    (∃ j ∈ q.joins, (join j).Exceeds d) ∨
    (∃ x ∈ q.filter, (condition x).Exceeds d) ∨
    (∃ f ∈ q.groupBy, (field f).Exceeds d) ∨
    (∃ x ∈ q.having, (condition x).Exceeds d) ∨
    (∃ o ∈ q.orderBy, (ordered o).Exceeds d) ∨
    (∃ a ∈ q.assignments, (assignment a).Exceeds d) ∨
    ((q.returning ≠ [] ∧ d.lacks .returning = true) ∨
      (∃ f ∈ q.returning, f.qualifier.isSome = true) ∧ d.lacks .qualifiedOutput = true ∨
      ∃ f ∈ q.returning, (field f).Exceeds d) ∨
    ((q.onConflict.isSome = true ∧ d.lacks .onConflict = true) ∨
      ∃ o ∈ q.onConflict, (conflict o).Exceeds d) := by
  have given (present : Bool) (feature : Feature) :
      (∃ g ∈ (if present then [feature] else []), d.lacks g = true) ↔
        present = true ∧ d.lacks feature = true := by
    cases present <;> simp
  have omitted (missing : Bool) (feature : Feature) :
      (∃ g ∈ (if missing then [] else [feature]), d.lacks g = true) ↔
        missing = false ∧ d.lacks feature = true := by
    cases missing <;> simp
  rw [exceeds_iff]
  simp only [asks, Query.asks, List.mem_append, or_and_right, exists_or, given, omitted, parts,
    Query.parts, List.cons_append, List.mem_cons, List.mem_map, exists_eq_left,
    exists_exists_and_eq_and, exceeds_table, exceeds_row, and_false, exists_false, false_or,
    or_false, Option.mem_toList]
  simp only [List.isEmpty_eq_false_iff, List.any_eq_true, ne_eq]
  -- the same alternatives, in the order that a query is rendered in
  apply iff_of_eq
  ac_rfl

end Exceeds
end TypedSql
