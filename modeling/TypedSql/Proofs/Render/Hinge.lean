import TypedSql.Proofs.Render.Clause
import TypedSql.Proofs.Render.Upsert
import TypedSql.Proofs.Render.Window
import TypedSql.Proofs.Tree.Demand

namespace TypedSql

/-- That rendering for a dialect hinges on what the dialect lacks: it gives a result, or else
    refuses in the name of the dialect, and it refuses exactly where the dialect falls short. -/
def Dialect.Hinges {α : Type} (d : Dialect) (short : Prop) (x : Except RenderError α) : Prop :=
  (¬short ∧ ∃ a, x = .ok a) ∨
    (short ∧ ∃ feature, d.lacks feature = true ∧ x = .error (.unsupported d feature))

namespace Dialect.Hinges
variable {α β : Type} {d : Dialect} {p q : Prop} {x : Except RenderError α}

theorem ok (a : α) : d.Hinges False (.ok a : Except RenderError α) := .inl ⟨id, a, rfl⟩

theorem of_ok {a : α} (made : x = .ok a) : d.Hinges False x := made ▸ ok a

theorem congr (hinges : d.Hinges p x) (same : q ↔ p) : d.Hinges q x := by
  rwa [propext same]

theorem bind {f : α → Except RenderError β} (first : d.Hinges p x)
    (second : ∀ a, d.Hinges q (f a)) : d.Hinges (p ∨ q) (x >>= f) := by
  rcases first with ⟨enough, a, rfl⟩ | ⟨short, feature, lacking, rfl⟩
  · exact (second a).congr (or_iff_right enough)
  · exact .inr ⟨.inl short, feature, lacking, rfl⟩

theorem map {f : α → β} (hinges : d.Hinges p x) : d.Hinges p (x.map f) := by
  rcases hinges with ⟨enough, a, rfl⟩ | ⟨short, feature, lacking, rfl⟩
  · exact .inl ⟨enough, f a, rfl⟩
  · exact .inr ⟨short, feature, lacking, rfl⟩

theorem arrange {f : α → β} (hinges : d.Hinges p x) : d.Hinges p (x >>= fun a => .ok (f a)) :=
  (hinges.bind fun a => ok (f a)).congr (or_iff_left id).symm

theorem mapM {f : α → Except RenderError β} {short : α → Prop} {xs : List α}
    (each : ∀ a ∈ xs, d.Hinges (short a) (f a)) : d.Hinges (∃ a ∈ xs, short a) (xs.mapM f) := by
  induction xs with
  | nil => exact (ok []).congr (by simp)
  | cons a rest ih =>
    rw [List.mapM_cons, List.exists_mem_cons_iff]
    have rest := ih fun b member => each b (List.mem_cons_of_mem _ member)
    exact (each a List.mem_cons_self).bind fun _ => rest.arrange

theorem all {f : α → Render β} {short : α → Prop} {xs : List α}
    (each : ∀ a ∈ xs, d.Hinges (short a) (f a).result) :
    d.Hinges (∃ a ∈ xs, short a) (Render.all (xs.map f)).result := by
  induction xs with
  | nil => exact (ok []).congr (by simp)
  | cons a rest ih =>
    simp only [List.map_cons, Render.all, Render.result_bind, List.exists_mem_cons_iff]
    have rest := ih fun b member => each b (List.mem_cons_of_mem _ member)
    exact (each a List.mem_cons_self).bind fun _ => rest.arrange

theorem allOrEmpty {γ : Type} {f : α → Render β} {short : α → Prop} {xs : List α} {empty : γ}
    {build : List β → γ} (each : ∀ a ∈ xs, d.Hinges (short a) (f a).result) :
    d.Hinges (∃ a ∈ xs, short a) (if (xs.map f).isEmpty then pure empty else do
      let parts ← Render.all (xs.map f)
      pure (build parts) : Render γ).result := by
  split
  · rename_i none
    have none : xs = [] := by simpa using none
    exact (ok empty).congr (by simp [none])
  · simp only [Render.result_bind]
    exact (all each).arrange

theorem require {feature : Feature} (spoken : feature ≠ .numberedPlaceholders) :
    d.Hinges (d.lacks feature = true) (d.require feature) := by
  have agree := Dialect.lacks_eq (d := d) spoken
  unfold Dialect.require
  cases supported : d.supports feature <;> rw [supported] at agree
  · exact .inr ⟨agree, feature, agree, rfl⟩
  · exact .inl ⟨by simp [agree], (), rfl⟩

end Dialect.Hinges

section Fields
variable {d other : Dialect} {s : Sql}

theorem Field.hinges {f : Field} (made : f.render other = .ok s) :
    d.Hinges ((Part.field f).Exceeds d) (f.render d) := by
  rw [Part.exceeds_field]
  unfold Field.render at made ⊢
  cases entered : f.path with
  | none => exact (Dialect.Hinges.ok _).congr (by simp)
  | some path =>
    simp only [entered] at made
    split at made
    · simp at made
    · rename_i full
      simp only [full, Bool.false_eq_true, ↓reduceIte, Dialect.jsonAccess]
      exact (Dialect.Hinges.require (by simp)).arrange.congr (by simp)

theorem renderFields_hinges {fields : List Field} (made : renderFields fields other = .ok s) :
    d.Hinges (∃ f ∈ fields, (Part.field f).Exceeds d) (renderFields fields d) := by
  obtain ⟨pairs, rfl, -, each⟩ := renderFields_ok made
  refine (Dialect.Hinges.mapM fun f member => ?_).map
  obtain ⟨p, inside, rfl⟩ := List.mem_map.mp member
  exact Field.hinges (each p inside)

theorem aggregateField_hinges {kind : AggregateKind} {f : Option Field} {missing : Missing}
    {column : Option Sql} (made : aggregateField other kind f missing = .ok column) :
    d.Hinges (∃ g ∈ f, (Part.field g).Exceeds d) (aggregateField d kind f missing) := by
  cases f with
  | none =>
    have same : aggregateField d kind none missing = aggregateField other kind none missing := by
      cases kind <;> rfl
    rw [same, made]
    exact (Dialect.Hinges.ok _).congr (by simp)
  | some g =>
    obtain ⟨rendered, made, -⟩ := Except.map_eq_ok.mp made
    simp only [aggregateField]
    exact (Field.hinges made).map.congr (by simp)

theorem renderDistinct_hinges {distinct : Bool} {on : List Field}
    (exclusive : distinct = true → on = []) (made : renderDistinct other distinct on = .ok s) :
    d.Hinges ((on ≠ [] ∧ d.lacks .distinctOn = true) ∨ ∃ f ∈ on, (Part.field f).Exceeds d)
      (renderDistinct d distinct on) := by
  unfold renderDistinct
  split
  · rename_i given
    exact (Dialect.Hinges.ok _).congr (by simp [exclusive given])
  · rename_i plain
    split
    · rename_i empty
      have empty : on = [] := by simpa using empty
      exact (Dialect.Hinges.ok _).congr (by simp [empty])
    · rename_i full
      rcases renderDistinct_ok made with ⟨given, -⟩ | ⟨-, empty, -⟩ | ⟨-, -, fields, listed, -⟩
      · exact absurd given plain
      · simp [empty] at full
      · have full : on ≠ [] := by simpa using full
        refine ((Dialect.Hinges.require (by simp)).bind fun _ =>
          (renderFields_hinges listed).arrange).congr ?_
        simp [full]

theorem renderGroupBy_hinges {groupBy : List Field} (made : renderGroupBy other groupBy = .ok s) :
    d.Hinges (∃ f ∈ groupBy, (Part.field f).Exceeds d) (renderGroupBy d groupBy) := by
  rcases renderGroupBy_ok made with ⟨rfl, -⟩ | ⟨-, fields, listed, -⟩
  · exact (Dialect.Hinges.ok _).congr (by simp)
  · unfold renderGroupBy
    split
    · rename_i empty
      have empty : groupBy = [] := by simpa using empty
      exact (Dialect.Hinges.ok _).congr (by simp [empty])
    · exact (renderFields_hinges listed).arrange

theorem WindowCall.partitionParts_hinges {partitionBy : List Field} {parts : List Sql}
    (made : WindowCall.partitionParts other partitionBy = .ok parts) :
    d.Hinges (∃ f ∈ partitionBy, (Part.field f).Exceeds d)
      (WindowCall.partitionParts d partitionBy) := by
  rcases WindowCall.partitionParts_ok made with ⟨rfl, -⟩ | ⟨fields, listed, -⟩
  · exact (Dialect.Hinges.ok _).congr (by simp)
  · unfold WindowCall.partitionParts
    split
    · rename_i empty
      have empty : partitionBy = [] := by simpa using empty
      exact (Dialect.Hinges.ok _).congr (by simp [empty])
    · exact (renderFields_hinges listed).map

theorem renderLock_hinges (lock : Option RowLock) :
    d.Hinges (lock.isSome = true ∧ d.lacks .rowLock = true) (renderLock d lock) := by
  cases lock with
  | none => exact (Dialect.Hinges.ok _).congr (by simp)
  | some lock =>
    have clause : d.Hinges (d.lacks .rowLock = true) (d.lockClause lock) :=
      (Dialect.Hinges.require (by simp)).arrange
    refine (clause.bind (q := False) fun clause => ?_).congr (by simp)
    cases clause <;> exact .ok _

theorem renderOutput_hinges {source : OutputSource} {returning : List Field} :
    d.Hinges (d = .sqlServer ∧ ∃ f ∈ returning, f.isPlain = false)
      (renderOutput d source returning) := by
  unfold renderOutput
  split
  · rename_i nothing
    refine (Dialect.Hinges.ok _).congr ⟨?_, False.elim⟩
    rintro ⟨rfl, f, member, -⟩
    have : returning = [] := by simpa [Dialect.returningStyle] using nothing
    simp [this] at member
  · rename_i reported
    have server : d = .sqlServer := by
      cases d <;> simp_all [Dialect.returningStyle]
    subst server
    have each : ∀ f ∈ returning,
        Dialect.sqlServer.Hinges (f.isPlain = false) (renderOutputColumn .sqlServer source f) := by
      intro f _
      unfold renderOutputColumn
      cases plain : f.isPlain
      · exact .inr ⟨rfl, .qualifiedOutput, rfl, rfl⟩
      · exact .inl ⟨by simp, _, rfl⟩
    exact (Dialect.Hinges.mapM each).map.congr (by simp)

theorem renderReturning_hinges {returning : List Field}
    (columned : ∀ f ∈ returning, ∃ t, f.render other = .ok t) :
    d.Hinges ((returning ≠ [] ∧ d.lacks .returning = true) ∨
        (d ≠ .sqlServer ∧ ∃ f ∈ returning, (Part.field f).Exceeds d))
      (renderReturning d returning) := by
  unfold renderReturning
  split
  · rename_i empty
    have empty : returning = [] := by simpa using empty
    exact (Dialect.Hinges.ok _).congr (by simp [empty])
  · rename_i full
    have full : returning ≠ [] := by simpa using full
    have fields : d.Hinges (∃ f ∈ returning, (Part.field f).Exceeds d) (renderFields returning d) := by
      refine (Dialect.Hinges.mapM fun f member => ?_).map
      obtain ⟨t, made⟩ := columned f member
      exact Field.hinges made
    cases d
    case postgres | sqlite => exact fields.map.congr (by simp [Dialect.lacks])
    case mySql => exact .inr ⟨.inl ⟨full, rfl⟩, .returning, rfl, rfl⟩
    case sqlServer => exact (Dialect.Hinges.ok _).congr (by simp [Dialect.lacks])

end Fields

def Context.speaking (c : Context) (d : Dialect) : Context := { c with dialect := d }

@[simp] theorem Context.speaking_dialect (c : Context) (d : Dialect) :
    (c.speaking d).dialect = d := rfl

theorem Context.enter_speaking {c child : Context} (entered : c.enter = .ok child) (d : Dialect) :
    (c.speaking d).enter = .ok (child.speaking d) := by
  simp only [Context.enter, Context.speaking] at entered ⊢
  split at entered
  · rename_i shallow
    simp only [shallow, ↓reduceIte]
    cases entered
    rfl
  · cases entered

theorem Context.style_of_enter {c child : Context} (entered : c.enter = .ok child) :
    child.style = c.style := by
  unfold Context.enter at entered
  split at entered <;> cases entered
  rfl

theorem Context.dialect_of_enter {c child : Context} (entered : c.enter = .ok child) :
    child.dialect = c.dialect := by
  unfold Context.enter at entered
  split at entered <;> cases entered
  rfl

section Places
variable {c : Context} {d : Dialect} {s : Sql}

theorem Context.param_hinges (named : c.style = .named) (p : Param) :
    d.Hinges False ((c.speaking d).param p).result := by
  refine Dialect.Hinges.of_ok (Context.param_ok_iff.mpr ⟨?_, rfl⟩)
  intro numbered
  rw [show (c.speaking d).style = c.style from rfl, named] at numbered
  cases numbered

theorem subqueryLeft_hinges {f : Option Field} {op : Operator} (made : subqueryLeft c f op = .ok s) :
    d.Hinges (∃ g ∈ f, (Part.field g).Exceeds d) (subqueryLeft (c.speaking d) f op) := by
  cases f with
  | none =>
    have same : subqueryLeft (c.speaking d) none op = subqueryLeft c none op := by
      cases op <;> rfl
    rw [same, made]
    exact (Dialect.Hinges.ok _).congr (by simp)
  | some g =>
    unfold subqueryLeft at made ⊢
    cases existence : op.isExistence <;> simp only [existence] at made ⊢
    · split at made
      · rename_i compares
        obtain ⟨column, columned, -⟩ := Except.map_eq_ok.mp made
        rw [if_pos compares]
        exact (Field.hinges columned).map.congr (by simp)
      · cases made
    · cases made

theorem Operand.hinges {o : Operand} (named : c.style = .named)
    (made : (o.render c).result = .ok s) :
    d.Hinges ((Part.operand o).Exceeds d) (o.render (c.speaking d)).result := by
  rw [Part.exceeds_iff]
  cases o with
  | field f => exact (Field.hinges made).congr (by simp [Part.asks, Part.parts, Operand.parts])
  | param p =>
    exact (Context.param_hinges named p).congr (by simp [Part.asks, Part.parts, Operand.parts])

theorem renderTuple_hinges (named : c.style = .named) (row : Row) :
    d.Hinges False (renderTuple (c.speaking d) row).result := by
  simp only [renderTuple, Render.result_bind]
  have values := Dialect.Hinges.all fun p (_ : p ∈ row.values) =>
    Context.param_hinges (d := d) named p
  exact values.arrange.congr (by simp)

theorem renderConflictSets_hinges (named : c.style = .named) (rejected : String → Sql)
    (updates : NameMap ConflictValue) :
    d.Hinges False (renderConflictSets (c.speaking d) rejected updates).result := by
  have each : ∀ u ∈ updates.entries,
      d.Hinges False (renderConflictSet (c.speaking d) rejected u).result := by
    rintro ⟨column, value⟩ -
    cases value with
    | param p =>
      simp only [renderConflictSet, Render.result_bind]
      exact (Context.param_hinges named p).arrange
    | excluded => exact .ok _
  simp only [renderConflictSets, Render.result_bind]
  exact (Dialect.Hinges.all each).arrange.congr (by simp)

theorem renderUpsert_hinges {conflict : Option OnConflict} (named : c.style = .named)
    (targeted : c.dialect.upsertStyle = .onConflict) (made : Upserts c conflict s) :
    d.Hinges (conflict.isSome = true ∧ d.lacks .onConflict = true)
      (renderUpsert (c.speaking d) conflict).result := by
  have missing : d.lacks .onConflict = true ↔ d.upsertStyle = .unsupported := by
    cases d <;> simp [Dialect.lacks, Dialect.upsertStyle]
  cases made with
  | none => exact (Dialect.Hinges.ok _).congr (by simp)
  | ignore keyed => simp [targeted] at keyed
  | duplicate keyed => simp [targeted] at keyed
  | skip _ written =>
    simp only [renderUpsert, Context.speaking_dialect]
    cases style : d.upsertStyle <;> rw [style] at missing
    · simp only [renderOnConflict, Render.result_bind, Render.lift_eq, Render.result_ofExcept,
        written]
      exact (Dialect.Hinges.ok _).congr (by simp [missing])
    · exact (Dialect.Hinges.ok _).congr (by simp [missing])
    · exact .inr ⟨by simp [missing], .onConflict, by simp [missing], rfl⟩
  | @update target columns updates _ written aimed full _ =>
    simp only [renderUpsert, Context.speaking_dialect]
    have aimed : target.isEmpty = false := by simpa using aimed
    cases style : d.upsertStyle <;> rw [style] at missing
    · simp only [renderOnConflict, Render.result_bind, Render.lift_eq, Render.result_ofExcept,
        written, aimed, full, Bool.false_eq_true, ↓reduceIte]
      exact (renderConflictSets_hinges named _ updates).arrange.congr (by simp [missing])
    · simp only [renderOnDuplicateKey, full, Bool.false_eq_true, ↓reduceIte, Render.result_bind]
      exact (renderConflictSets_hinges named _ updates).arrange.congr (by simp [missing])
    · exact .inr ⟨by simp [missing], .onConflict, by simp [missing], rfl⟩

theorem WindowCall.shiftArguments_hinges (named : c.style = .named) (w : WindowCall) (column : Sql) :
    d.Hinges False (w.shiftArguments (c.speaking d) column).result := by
  have placed := Context.param_hinges (d := d) named
  unfold WindowCall.shiftArguments
  split
  · exact .ok _
  · rw [Render.result_bind]
    exact (placed _).arrange
  · simp only [Render.result_bind]
    exact ((placed _).bind fun _ => (placed _).arrange).congr (by simp)
  · rw [Render.result_bind]
    exact (placed _).arrange

theorem WindowCall.renderCall_hinges {w : WindowCall} (named : c.style = .named)
    (called : w.Calls c s) :
    d.Hinges (∃ f ∈ w.field, (Part.field f).Exceeds d) (w.renderCall (c.speaking d)).result := by
  unfold WindowCall.renderCall
  cases called with
  | ranking checked ranks bare =>
    rcases ranks with ranks | ranks | ranks
    all_goals
      simp only [checked, ranks, bare, Render.lift_eq, Render.result_bind]
      exact (Dialect.Hinges.ok _).congr (by simp)
  | ntile checked tiles bare given =>
    simp only [checked, tiles, bare, given, Option.isSome_none, Bool.false_eq_true, ↓reduceIte,
      Render.lift_eq, Render.result_bind]
    exact (Context.param_hinges named _).arrange.congr (by simp)
  | shift checked shifted given columned =>
    rcases shifted with shifted | shifted
    all_goals
      simp only [checked, shifted, given, Render.lift_eq, Render.result_bind, Render.result_ofExcept]
      refine ((Field.hinges columned).bind fun column =>
        (w.shiftArguments_hinges named column).arrange).congr (by simp)
  | edge checked edged given columned =>
    rcases edged with edged | edged
    all_goals
      simp only [checked, edged, given, Render.lift_eq, Render.result_bind, Render.result_ofExcept]
      exact (Field.hinges columned).arrange.congr (by simp)
  | aggregate checked aggregates columned =>
    simp only [checked, aggregates, Render.lift_eq, Render.result_bind, Render.result_ofExcept]
    exact (aggregateField_hinges columned).arrange

end Places

section Lists
variable {d : Dialect}

theorem renderConditional_hinges {α : Type} {keyword : String} {f : α → Render Sql}
    {short : α → Prop} {x : Option α} (each : ∀ a ∈ x, d.Hinges (short a) (f a).result) :
    d.Hinges (∃ a ∈ x, short a) (renderConditional keyword (x.map f)).result := by
  cases x with
  | none => exact (Dialect.Hinges.ok _).congr (by simp)
  | some a =>
    simp only [renderConditional, Option.map_some, Render.result_bind]
    exact (each a rfl).arrange.congr (by simp)

theorem renderJoins_hinges {α : Type} {f : α → Render Sql} {short : α → Prop} {xs : List α}
    (each : ∀ a ∈ xs, d.Hinges (short a) (f a).result) :
    d.Hinges (∃ a ∈ xs, short a) (renderJoins (xs.map f)).result := by
  simp only [renderJoins, Render.result_bind]
  exact (Dialect.Hinges.all each).arrange

theorem WindowCall.renderOver_hinges {α : Type} {f : α → Render Sql} {short : α → Prop}
    {xs : List α} {other : Dialect} {partitionBy : List Field} {partitioned framed : List Sql}
    {frame : Option Frame} (c : Context)
    (partition : WindowCall.partitionParts other partitionBy = .ok partitioned)
    (bounded : WindowCall.frameParts frame = .ok framed)
    (each : ∀ a ∈ xs, c.dialect.Hinges (short a) (f a).result) :
    c.dialect.Hinges ((∃ f ∈ partitionBy, (Part.field f).Exceeds c.dialect) ∨ ∃ a ∈ xs, short a)
      (WindowCall.renderOver c partitionBy (xs.map f) frame).result := by
  simp only [WindowCall.renderOver, Render.result_bind, Render.lift_eq, Render.result_ofExcept,
    bounded]
  exact (WindowCall.partitionParts_hinges partition).bind fun _ =>
    (Dialect.Hinges.allOrEmpty each).arrange

theorem Dialect.binary_hinges {op : BinaryOp} {left right : Sql} :
    d.Hinges (op.isVector = true ∧ d.lacks (.vectorOperator op) = true) (d.binary left op right) := by
  unfold Dialect.binary
  cases vector : op.isVector
  · exact (Dialect.Hinges.ok _).congr (by simp)
  · exact (Dialect.Hinges.require (by simp)).arrange.congr (by simp)

theorem Dialect.castType_hinges {type : CastType} :
    d.Hinges (d.lacks (.cast type) = true) (d.castType type) := by
  have agree := Dialect.lacks_eq (d := d) (show Feature.cast type ≠ .numberedPlaceholders by simp)
  simp only [Dialect.supports] at agree
  unfold Dialect.castType
  cases named : d.typeName? type <;> rw [named] at agree
  · exact .inr ⟨agree, .cast type, agree, rfl⟩
  · exact .inl ⟨by simp [agree], _, rfl⟩

theorem renderAssignments_hinges {α : Type} {target : α → Field} {f : α → Render Sql}
    {short : α → Prop} {xs : List α}
    (unrepeated : repeatedNeighbour? (sortAssignments (xs.map fun x => (target x, x))) = none)
    (plain : ∀ x ∈ xs, (target x).isPlain = true)
    (each : ∀ x ∈ xs, d.Hinges (short x) (f x).result) :
    d.Hinges (∃ x ∈ xs, short x) (renderAssignments (xs.map fun x => (target x, f x))).result := by
  have among : ∀ b ∈ sortAssignments (xs.map fun x => (target x, x)),
      b.1 = target b.2 ∧ b.2 ∈ xs := by
    intro b member
    obtain ⟨x, inside, rfl⟩ := List.mem_map.mp (mem_sortAssignments.mp member)
    exact ⟨rfl, inside⟩
  have each : ∀ b ∈ sortAssignments (xs.map fun x => (target x, x)),
      d.Hinges (short b.2) ((renderAssignment ∘ Prod.map id f) b).result := by
    intro b member
    obtain ⟨aimed, inside⟩ := among b member
    simp only [Function.comp_apply, Prod.map, id_eq, renderAssignment, aimed, plain b.2 inside,
      ↓reduceIte, Render.result_bind]
    exact (each b.2 inside).arrange
  rw [renderAssignments_eq _ (by rw [sortAssignments_beside, repeatedNeighbour?_map, unrepeated]),
    sortAssignments_beside, List.map_map, Render.result_bind]
  refine (Dialect.Hinges.all each).arrange.congr ?_
  simp [mem_sortAssignments]

end Lists
end TypedSql
