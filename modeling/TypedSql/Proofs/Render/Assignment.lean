import TypedSql.Proofs.Render.Success
import TypedSql.Render.Update

namespace TypedSql

def assignmentSql (assignment : Field × Sql) : Sql :=
  [.name .field assignment.1.name, .text " = "] ++ assignment.2

section Order
variable {α β γ : Type}

theorem sortAssignments_map (g : α → β) (assignments : List (Field × α)) :
    sortAssignments (assignments.map (Prod.map id g)) =
      (sortAssignments assignments).map (Prod.map id g) := by
  refine (List.map_mergeSort ?_).symm
  intro a _ b _
  rfl

theorem repeatedNeighbour?_map (g : α → β) (assignments : List (Field × α)) :
    repeatedNeighbour? (assignments.map (Prod.map id g)) = repeatedNeighbour? assignments := by
  induction assignments with
  | nil => rfl
  | cons a rest ih =>
    cases rest with
    | nil => rfl
    | cons b rest =>
      simp only [List.map_cons, repeatedNeighbour?, Prod.map_fst, id_eq] at ih ⊢
      rw [ih]

theorem sortAssignments_beside (target : α → Field) (g : α → β) (xs : List α) :
    sortAssignments (xs.map fun x => (target x, g x)) =
      (sortAssignments (xs.map fun x => (target x, x))).map (Prod.map id g) := by
  rw [← sortAssignments_map, List.map_map]
  rfl

theorem sortAssignments_fst (target : α → Field) (g : α → γ) (pairs : List (α × β)) :
    sortAssignments ((pairs.map Prod.fst).map fun x => (target x, g x)) =
      (sortAssignments (pairs.map fun p => (target p.1, p))).map (Prod.map id fun p => g p.1) := by
  rw [List.map_map]
  exact sortAssignments_beside (fun p => target p.1) (fun p => g p.1) pairs

theorem sortAssignments_snd (target : α → Field) (pairs : List (α × β)) :
    sortAssignments (pairs.map fun p => (target p.1, p.2)) =
      (sortAssignments (pairs.map fun p => (target p.1, p))).map (Prod.map id Prod.snd) :=
  sortAssignments_beside (fun p => target p.1) Prod.snd pairs

theorem mem_sortAssignments {a : Field × α} {assignments : List (Field × α)} :
    a ∈ sortAssignments assignments ↔ a ∈ assignments := List.mem_mergeSort

end Order

theorem renderAssignment_ok_iff {target : Field} {x : Render Sql} {s : Sql} :
    (renderAssignment (target, x)).result = .ok s ↔
      target.isPlain = true ∧ ∃ value, x.result = .ok value ∧ assignmentSql (target, value) = s := by
  unfold renderAssignment
  by_cases plain : target.isPlain = true
  · simp only [plain, ↓reduceIte, Render.bind_ok_iff, Render.result_pure, Except.ok.injEq,
      true_and]
    rfl
  · simp [plain]

section Pairs
variable {α : Type} (target : α → Field) {f : α → Render Sql}

theorem renderAssignments_eq (assignments : List (Field × Render Sql))
    (unrepeated : repeatedNeighbour? (sortAssignments assignments) = none) :
    renderAssignments assignments =
      Render.all ((sortAssignments assignments).map renderAssignment) >>= fun sets =>
        pure (Sql.commaList sets) := by
  simp only [renderAssignments, unrepeated]

theorem renderAssignments_ok {xs : List α} {s : Sql}
    (success : (renderAssignments (xs.map fun x => (target x, f x))).result = .ok s) :
    ∃ pairs : List (α × Sql), xs = pairs.map Prod.fst ∧
      (∀ p ∈ pairs, (target p.1).isPlain = true ∧ (f p.1).result = .ok p.2) ∧
      repeatedNeighbour? (sortAssignments (pairs.map fun p => (target p.1, p.2))) = none ∧
      s = Sql.commaList
        ((sortAssignments (pairs.map fun p => (target p.1, p.2))).map assignmentSql) := by
  cases unrepeated : repeatedNeighbour? (sortAssignments (xs.map fun x => (target x, f x))) with
  | some name => simp [renderAssignments, unrepeated] at success
  | none =>
    simp only [renderAssignments_eq _ unrepeated, Render.bind_ok_iff, Render.result_pure,
      Except.ok.injEq] at success
    obtain ⟨sets, all, rfl⟩ := success
    have each : ∀ x ∈ xs, ∃ value, (target x).isPlain = true ∧ (f x).result = .ok value := by
      intro x member
      have inside : (target x, f x) ∈ sortAssignments (xs.map fun x => (target x, f x)) :=
        mem_sortAssignments.mpr (List.mem_map_of_mem member)
      obtain ⟨_, made⟩ := Render.each_of_all_ok all (List.mem_map_of_mem inside)
      obtain ⟨plain, value, found, -⟩ := renderAssignment_ok_iff.mp made
      exact ⟨value, plain, found⟩
    obtain ⟨pairs, rfl, made⟩ := exists_pairs_of_each each
    rw [sortAssignments_fst, List.map_map] at all
    have sorted : (Render.all ((sortAssignments (pairs.map fun p => (target p.1, p))).map
        (renderAssignment ∘ Prod.map id fun p => f p.1))).result =
          .ok ((sortAssignments (pairs.map fun p => (target p.1, p))).map fun b =>
            assignmentSql (b.1, b.2.2)) := by
      refine Render.all_ok_of_each fun b member => ?_
      obtain ⟨p, inside, rfl⟩ := List.mem_map.mp (mem_sortAssignments.mp member)
      exact renderAssignment_ok_iff.mpr ⟨(made p inside).1, p.2, (made p inside).2, rfl⟩
    rw [all, Except.ok.injEq] at sorted
    rw [sortAssignments_fst, repeatedNeighbour?_map] at unrepeated
    refine ⟨pairs, rfl, made, ?_, ?_⟩
    · rw [sortAssignments_snd, repeatedNeighbour?_map, unrepeated]
    · rw [sorted, sortAssignments_snd, List.map_map]
      rfl

end Pairs
end TypedSql
