import Mathlib.Data.List.Duplicate
import Mathlib.Data.String.Basic
import Mathlib.Order.Bounds.Basic
import TypedSql.Proofs.Render.Targets
import TypedSql.Proofs.Sql.Spelling
import TypedSql.Tree.Build

namespace TypedSql

def repeatedNames {α : Type} (xs : List (Field × α)) : Set String :=
  {name | List.Duplicate name (xs.map fun a => a.1.name)}

section Sorted
variable {α : Type} {a : Field × α} {xs ys : List (Field × α)} {name : String}

theorem sortAssignments_perm (xs : List (Field × α)) : (sortAssignments xs).Perm xs :=
  List.mergeSort_perm xs _

theorem sortAssignments_pairwise (xs : List (Field × α)) :
    (sortAssignments xs).Pairwise fun a b => a.1.name ≤ b.1.name := by
  have trans (a b c : Field × α) : decide (a.1.name ≤ b.1.name) = true →
      decide (b.1.name ≤ c.1.name) = true → decide (a.1.name ≤ c.1.name) = true := by
    simpa using String.le_trans
  have total (a b : Field × α) :
      (decide (a.1.name ≤ b.1.name) || decide (b.1.name ≤ a.1.name)) = true := by
    simpa using String.le_total a.1.name b.1.name
  simpa [sortAssignments] using List.pairwise_mergeSort trans total xs

theorem repeatedNames_perm (permuted : xs.Perm ys) : repeatedNames xs = repeatedNames ys := by
  ext name
  simp only [repeatedNames, Set.mem_ofPred_eq, List.duplicate_iff_two_le_count,
    (permuted.map _).count_eq]

theorem not_mem_of_sorted {b : Field × α}
    (sorted : (a :: b :: xs).Pairwise fun a b => a.1.name ≤ b.1.name)
    (differ : a.1.name ≠ b.1.name) : a.1.name ∉ (b :: xs).map fun a => a.1.name := by
  intro member
  obtain ⟨first, others⟩ := List.pairwise_cons.mp sorted
  have before : b.1.name ≤ a.1.name := by
    rcases List.mem_cons.mp member with same | member
    · exact absurd same differ
    · obtain ⟨d, inside, same⟩ := List.mem_map.mp member
      rw [← same]
      exact (List.pairwise_cons.mp others).1 d inside
  exact differ (String.le_antisymm (first b List.mem_cons_self) before)

theorem repeatedNames_cons (lone : a.1.name ∉ xs.map fun a => a.1.name) :
    repeatedNames (a :: xs) = repeatedNames xs := by
  ext name
  simp only [repeatedNames, Set.mem_ofPred_eq, List.map_cons, List.duplicate_cons_iff]
  constructor
  · rintro (⟨rfl, member⟩ | repeated)
    · exact absurd member lone
    · exact repeated
  · exact .inr

theorem isLeast_of_repeatedNeighbour? (sorted : xs.Pairwise fun a b => a.1.name ≤ b.1.name)
    (found : repeatedNeighbour? xs = some name) : IsLeast (repeatedNames xs) name := by
  induction xs with
  | nil => simp [repeatedNeighbour?] at found
  | cons a rest ih =>
    obtain _ | ⟨b, rest⟩ := rest
    · simp [repeatedNeighbour?] at found
    obtain ⟨first, others⟩ := List.pairwise_cons.mp sorted
    rw [repeatedNeighbour?] at found
    split at found
    · rename_i same
      obtain rfl := Option.some.inj found
      constructor
      · apply List.Mem.duplicate_cons_self
        rw [same]
        exact List.mem_cons_self
      · intro n repeated
        rcases List.mem_cons.mp (List.Duplicate.mem repeated) with rfl | member
        · exact le_refl _
        · exact List.forall_mem_map.mpr first n member
    · rename_i differ
      rw [repeatedNames_cons (not_mem_of_sorted sorted differ)]
      exact ih others found

theorem repeatedNames_of_repeatedNeighbour? (sorted : xs.Pairwise fun a b => a.1.name ≤ b.1.name)
    (none : repeatedNeighbour? xs = none) : repeatedNames xs = ∅ := by
  induction xs with
  | nil => simp [repeatedNames, List.not_duplicate_nil]
  | cons a rest ih =>
    obtain _ | ⟨b, rest⟩ := rest
    · simp [repeatedNames, List.not_duplicate_singleton]
    rw [repeatedNeighbour?] at none
    split at none
    · cases none
    · rename_i differ
      rw [repeatedNames_cons (not_mem_of_sorted sorted differ)]
      exact ih (List.pairwise_cons.mp sorted).2 none

theorem sorted_repeatedNeighbour?_iff :
    repeatedNeighbour? (sortAssignments xs) = some name ↔ IsLeast (repeatedNames xs) name := by
  have sorted := sortAssignments_pairwise xs
  rw [← repeatedNames_perm (sortAssignments_perm xs)]
  constructor
  · exact isLeast_of_repeatedNeighbour? sorted
  · intro least
    cases found : repeatedNeighbour? (sortAssignments xs) with
    | none =>
      rw [repeatedNames_of_repeatedNeighbour? sorted found] at least
      exact absurd least.1 (Set.notMem_empty name)
    | some other => rw [(isLeast_of_repeatedNeighbour? sorted found).unique least]

theorem nodup_iff_repeatedNeighbour? :
    (xs.map fun a => a.1.name).Nodup ↔ repeatedNeighbour? (sortAssignments xs) = none := by
  rw [List.nodup_iff_forall_not_duplicate]
  constructor
  · intro unrepeated
    rw [Option.eq_none_iff_forall_ne_some]
    intro name found
    exact unrepeated name (sorted_repeatedNeighbour?_iff.mp found).1
  · intro none name repeated
    have empty := repeatedNames_of_repeatedNeighbour? (sortAssignments_pairwise xs) none
    rw [repeatedNames_perm (sortAssignments_perm xs)] at empty
    exact Set.eq_empty_iff_forall_notMem.mp empty name repeated

theorem sortAssignments_eq_of_perm (permuted : xs.Perm ys)
    (unrepeated : (xs.map fun a => a.1.name).Nodup) : sortAssignments xs = sortAssignments ys := by
  apply List.Perm.eq_of_pairwise _ (sortAssignments_pairwise xs) (sortAssignments_pairwise ys)
  · exact (sortAssignments_perm xs).trans (permuted.trans (sortAssignments_perm ys).symm)
  · intro a b inside beside before after
    exact List.inj_on_of_nodup_map unrepeated (mem_sortAssignments.mp inside)
      (permuted.mem_iff.mpr (mem_sortAssignments.mp beside)) (String.le_antisymm before after)

end Sorted

section Assigned
variable {xs ys : List (Field × Render Sql)} {name : String}

/-- The order in which assignments come is lost before any of them is rendered. -/
theorem renderAssignments_perm (permuted : xs.Perm ys) :
    renderAssignments xs = renderAssignments ys := by
  have same : repeatedNeighbour? (sortAssignments xs) = repeatedNeighbour? (sortAssignments ys) := by
    apply Option.ext
    intro name
    rw [sorted_repeatedNeighbour?_iff, sorted_repeatedNeighbour?_iff, repeatedNames_perm permuted]
  simp only [renderAssignments, same]
  cases unrepeated : repeatedNeighbour? (sortAssignments ys) with
  | some name => rfl
  | none =>
    have once := nodup_iff_repeatedNeighbour?.mpr (same.trans unrepeated)
    rw [sortAssignments_eq_of_perm permuted once]

theorem renderAssignments_sparesTargets (unrepeated : (xs.map fun a => a.1.name).Nodup)
    (plain : ∀ a ∈ xs, a.1.isPlain = true) (values : ∀ a ∈ xs, SparesTargets a.2.result) :
    SparesTargets (renderAssignments xs).result := by
  rw [renderAssignments_eq _ (nodup_iff_repeatedNeighbour?.mp unrepeated), Render.result_bind]
  apply SparesTargets.bind _ fun _ => .ok _
  apply SparesTargets.all
  intro a member
  have inside := mem_sortAssignments.mp member
  rw [renderAssignment, if_pos (plain a inside), Render.result_bind]
  exact (values a inside).bind fun _ => .ok _

/-- A repetition is found before any target or value is looked at, and reported for nothing
    else. -/
theorem renderAssignments_duplicate_iff (values : ∀ a ∈ xs, SparesTargets a.2.result) :
    (renderAssignments xs).result = .error (.duplicateAssignment name) ↔
      IsLeast (repeatedNames xs) name := by
  rw [← sorted_repeatedNeighbour?_iff]
  cases found : repeatedNeighbour? (sortAssignments xs) with
  | some other => simp [renderAssignments, found]
  | none =>
    rw [renderAssignments_eq _ found, Render.result_bind]
    apply iff_of_false
    · intro failed
      cases sets : (Render.all ((sortAssignments xs).map renderAssignment)).result with
      | ok parts => rw [sets] at failed; cases failed
      | error fault =>
        rw [sets] at failed
        obtain rfl := Except.error.inj failed
        obtain ⟨⟨target, value⟩, member, refused⟩ := Render.exists_error_of_all sets
        rw [renderAssignment] at refused
        split at refused
        · have spared := (values _ (mem_sortAssignments.mp member)).bind fun s =>
            SparesTargets.ok (assignmentSql (target, s))
          rw [Render.result_bind] at refused
          exact absurd (spared _ refused) (by simp [RenderError.isOfTarget])
        · cases refused
    · exact Option.some_ne_none name ∘ Eq.symm

end Assigned

def Query.assigned (q : Query) (c : Context) : List (Field × Render Sql) :=
  q.assignments.map fun a => (a.field, (Node.assigned a.value).render c)

namespace Query
variable {q : Query} {c : Context}

theorem names_assigned : ((q.assigned c).map fun a => a.1.name) =
    q.assignments.map fun a => a.field.name := by
  simp [assigned]

theorem assigned_sparesTargets : ∀ a ∈ q.assigned c, SparesTargets a.2.result := by
  intro a member
  obtain ⟨assignment, -, rfl⟩ := List.mem_map.mp member
  exact (Part.assignment assignment).sparesTargets c

theorem update_refused_iff {e : RenderError} (operation : q.operation = .update)
    (concerns : e.isOfTarget = true) :
    (q.render c).result = .error e ↔
      q.checkClauses = .ok () ∧ (renderAssignments (q.assigned c)).result = .error e := by
  have filters : SparesTargets (renderConditional "WHERE"
      (q.filter.map fun x => (Node.condition .whereClause false x).render c)).result := by
    apply renderConditional_sparesTargets
    intro y given
    obtain ⟨x, -, rfl⟩ := Option.mem_map.mp given
    exact (Part.condition x).sparesTargets c .whereClause false
  simp only [renderQuery_eq, renderOperation, operation, renderUpdate, Render.lift_eq,
    Render.result_bind, Render.result_ofExcept]
  rw [SparesTargets.bind_eq_error_iff concerns q.checkClauses_sparesTargets, Unique.exists_iff]
  apply and_congr_right
  intro _
  rw [← assigned]
  split
  · rename_i empty
    have none : q.assigned c = [] := by simpa [assigned] using empty
    rw [none]
    apply iff_of_false
    · intro failed
      obtain rfl := Except.error.inj failed
      simp [RenderError.isOfTarget] at concerns
    · simp [renderAssignments, sortAssignments, repeatedNeighbour?, Render.all]
  · simp only [Render.result_bind, Render.result_ofExcept]
    apply SparesTargets.bind_eq_error_iff_first concerns
    intro sets
    exact (renderOutput_sparesTargets _ _ _).bind fun _ => filters.bind fun _ =>
      (renderReturning_sparesTargets _ _).bind fun _ => .ok _

section Permuted
variable {as : List Assignment} (permuted : as.Perm q.assignments)
include permuted

theorem checkClauses_perm : { q with assignments := as }.checkClauses = q.checkClauses := by
  have present : ∀ clause : Clause,
      clause.isPresent { q with assignments := as } = clause.isPresent q := by
    intro clause
    cases clause
    case set => simp only [Clause.isPresent, permuted.isEmpty_eq]
    all_goals rfl
  simp only [checkClauses, present]

theorem render_perm : { q with assignments := as }.render c = q.render c := by
  have clauses := checkClauses_perm permuted
  have sets := renderAssignments_perm
    (permuted.map fun a => (a.field, (Node.assigned a.value).render c))
  simp only [renderQuery_eq, renderOperation]
  cases operation : q.operation <;> simp only [operation] at clauses
  case update => simp only [renderUpdate, clauses, sets, permuted.isEmpty_eq]
  case select => simp only [renderSelect, clauses, checkSelect]
  case count => simp only [renderCount, clauses]
  case insert => simp only [renderInsert, clauses]
  case delete => simp only [renderDelete, clauses]

end Permuted

/-- A query whose assignments have been added by `set`, in whatever order with the other steps
    that make a query. -/
inductive AssignedBySet : Query → Prop
  | start {q : Query} (empty : q.assignments = []) : AssignedBySet q
  | set {q r : Query} {target : Field} {value : AssignValue} (prior : AssignedBySet q)
      (made : q.set target value = .ok r) : AssignedBySet r
  | step {q r : Query} (prior : AssignedBySet q) (same : r.assignments = q.assignments) :
      AssignedBySet r

def AssignsApart (q : Query) : Prop :=
  (∀ a ∈ q.assignments, a.field.isPlain = true) ∧ (q.assignments.map fun a => a.field.name).Nodup

theorem AssignsApart.set {r : Query} {target : Field} {value : AssignValue}
    (apart : q.AssignsApart) (made : q.set target value = .ok r) : r.AssignsApart := by
  obtain ⟨plain, once⟩ := apart
  unfold Query.set at made
  split at made
  · cases made
  · rename_i bare
    split at made
    · cases made
    · rename_i fresh
      obtain rfl := Except.ok.inj made
      have absent : ∀ a ∈ q.assignments, a.field.name ≠ target.name := by simpa using fresh
      constructor
      · intro a member
        rcases List.mem_append.mp member with earlier | last
        · exact plain a earlier
        · obtain rfl := List.mem_singleton.mp last
          simpa using bare
      · rw [List.map_append, List.nodup_append']
        refine ⟨once, List.nodup_singleton _, ?_⟩
        intro name earlier last
        obtain ⟨a, member, rfl⟩ := List.mem_map.mp earlier
        exact absent a member (List.mem_singleton.mp last)

theorem AssignedBySet.apart (made : q.AssignedBySet) : q.AssignsApart := by
  induction made with
  | start empty => simp [AssignsApart, empty]
  | set _ made apart => exact apart.set made
  | step _ same apart =>
    unfold AssignsApart
    rw [same]
    exact apart

end Query

/-- The order of assignments does not matter. Any order of them renders the same, be it a text
    or a refusal. A column that is assigned twice is reported, the least of them by name, if and
    only if the clauses of the update are admitted; and what `set` has added is neither assigned
    twice nor anything but a plain column. -/
theorem Query.assignments_unordered (q : Query) (options : RenderOptions) :
    (∀ as : List Assignment, as.Perm q.assignments →
      { q with assignments := as }.toSql options = q.toSql options) ∧
    (q.operation = .update → ∀ name : String,
      q.toSql options = .error (.duplicateAssignment name) ↔
        q.checkClauses = .ok () ∧
          IsLeast {n | List.Duplicate n (q.assignments.map fun a => a.field.name)} name) ∧
    (q.operation = .update → q.AssignedBySet →
      (∀ name, q.toSql options ≠ .error (.duplicateAssignment name)) ∧
        q.toSql options ≠ .error (.invalidAssignment .target)) := by
  refine ⟨?_, ?_, ?_⟩
  · intro as permuted
    rw [toSql, toSql, RenderOptions.run, RenderOptions.run, render_perm permuted]
  · intro operation name
    rw [toSql, RenderOptions.run_eq_error_iff, update_refused_iff operation rfl,
      renderAssignments_duplicate_iff assigned_sparesTargets, repeatedNames, names_assigned]
  · intro operation made
    obtain ⟨plain, once⟩ := made.apart
    have spared : SparesTargets (renderAssignments (q.assigned (.top options))).result := by
      apply renderAssignments_sparesTargets
      · rw [names_assigned]
        exact once
      · intro a member
        obtain ⟨assignment, inside, rfl⟩ := List.mem_map.mp member
        exact plain assignment inside
      · exact assigned_sparesTargets
    have never : ∀ e : RenderError, e.isOfTarget = true → q.toSql options ≠ .error e := by
      intro e concerns failed
      rw [toSql, RenderOptions.run_eq_error_iff, update_refused_iff operation concerns] at failed
      have other := spared e failed.2
      simp [concerns] at other
    exact ⟨fun name => never _ rfl, never _ rfl⟩

def correction : Query :=
  { operation := .update, table := { name := "users" }
    assignments := [⟨{ name := "name" }, .param ⟨"called", by decide⟩⟩,
      ⟨{ name := "age" }, .expr (.field { name := "id" })⟩] }

theorem correction_assignedBySet : correction.AssignedBySet := by
  have named : ({ correction with assignments := [] } : Query).set { name := "name" }
      (.param ⟨"called", by decide⟩) =
        .ok { correction with assignments := correction.assignments.take 1 } := by rfl
  have aged : ({ correction with assignments := correction.assignments.take 1 } : Query).set
      { name := "age" } (.expr (.field { name := "id" })) = .ok correction := by rfl
  exact .set (.set (.start rfl) named) aged

theorem correction_unordered :
    { correction with assignments := correction.assignments.reverse }.toSql {} = correction.toSql {} ∧
      correction.toSql {} ≠ .error (.invalidAssignment .target) ∧
      { correction with assignments := correction.assignments ++ correction.assignments }.toSql {} =
        .error (.duplicateAssignment "age") := by
  have once := Query.assignments_unordered correction {}
  have twice := Query.assignments_unordered
    { correction with assignments := correction.assignments ++ correction.assignments } {}
  refine ⟨once.1 _ (List.reverse_perm _), (once.2.2 rfl correction_assignedBySet).2, ?_⟩
  apply (twice.2.1 rfl "age").mpr
  refine ⟨by decide, ?_, ?_⟩
  · show List.Duplicate "age" ["name", "age", "name", "age"]
    exact List.duplicate_iff_two_le_count.mpr (by decide)
  · intro name repeated
    have listed : name ∈ ["name", "age", "name", "age"] := repeated.mem
    simp only [List.mem_cons, List.not_mem_nil, or_false] at listed
    rcases listed with rfl | rfl | rfl | rfl <;> decide

end TypedSql
