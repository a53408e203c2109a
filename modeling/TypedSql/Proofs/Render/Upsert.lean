import TypedSql.Proofs.Render.Success
import TypedSql.Render.Insert

namespace TypedSql

def conflictSetSql (c : Context) (rejected : String → Sql) (update : String × ConflictValue) : Sql :=
  [.name .field update.1, .text " = "] ++
    match update.2 with
    | .param p => c.placeholder p
    | .excluded => rejected update.1

def excludedColumn (column : String) : Sql := [.text "EXCLUDED.", .name .field column]

def valuesColumn (column : String) : Sql := [.text "VALUES(", .name .field column, .text ")"]

def conflictSets (c : Context) (rejected : String → Sql) (updates : NameMap ConflictValue) : Sql :=
  Sql.commaList (updates.entries.map (conflictSetSql c rejected))

def ConflictValue.Styled (c : Context) (value : ConflictValue) : Prop :=
  ∀ p, value = .param p → c.HasPlaceholders

/-- How the clause on existing rows comes about. -/
inductive Upserts (c : Context) : Option OnConflict → Sql → Prop where
  | none : Upserts c none []
  | skip {target columns} (targeted : c.dialect.upsertStyle = .onConflict)
      (written : renderTarget target = .ok columns) :
      Upserts c (some ⟨target, .doNothing⟩) (sql " ON CONFLICT" ++ columns ++ sql " DO NOTHING")
  | update {target columns updates} (targeted : c.dialect.upsertStyle = .onConflict)
      (written : renderTarget target = .ok columns) (aimed : target ≠ [])
      (full : updates.isEmpty = false) (styled : ∀ u ∈ updates.entries, u.2.Styled c) :
      Upserts c (some ⟨target, .doUpdate updates⟩)
        (sql " ON CONFLICT" ++ columns ++ sql " DO UPDATE SET " ++
          conflictSets c excludedColumn updates)
  | ignore {target} (keyed : c.dialect.upsertStyle = .onDuplicateKey) :
      Upserts c (some ⟨target, .doNothing⟩) []
  | duplicate {target updates} (keyed : c.dialect.upsertStyle = .onDuplicateKey)
      (full : updates.isEmpty = false) (styled : ∀ u ∈ updates.entries, u.2.Styled c) :
      Upserts c (some ⟨target, .doUpdate updates⟩)
        (sql " ON DUPLICATE KEY UPDATE " ++ conflictSets c valuesColumn updates)

section Success
variable {c : Context} {s : Sql}

theorem renderConflictSet_ok {rejected : String → Sql} {update : String × ConflictValue}
    (success : (renderConflictSet c rejected update).result = .ok s) :
    s = conflictSetSql c rejected update ∧ update.2.Styled c := by
  obtain ⟨column, value⟩ := update
  cases value with
  | param p =>
    simp only [renderConflictSet, Render.bind_ok_iff, Context.param_ok_iff, Render.result_pure,
      Except.ok.injEq] at success
    obtain ⟨_, ⟨styled, rfl⟩, rfl⟩ := success
    exact ⟨rfl, fun _ _ => styled⟩
  | excluded =>
    simp only [renderConflictSet, Render.result_pure, Except.ok.injEq] at success
    exact ⟨success.symm, fun _ same => by cases same⟩

theorem renderConflictSets_ok {rejected : String → Sql} {updates : NameMap ConflictValue}
    (success : (renderConflictSets c rejected updates).result = .ok s) :
    s = conflictSets c rejected updates ∧ ∀ u ∈ updates.entries, u.2.Styled c := by
  simp only [renderConflictSets, Render.bind_ok_iff, Render.result_pure, Except.ok.injEq] at success
  obtain ⟨sets, all, rfl⟩ := success
  obtain ⟨pairs, listed, rfl, each⟩ := Render.exists_pairs_of_all all
  constructor
  · rw [conflictSets, listed, List.map_map]
    congr 1
    exact List.map_congr_left fun p member => (renderConflictSet_ok (each p member)).1
  · rw [listed]
    intro u member
    obtain ⟨p, inside, rfl⟩ := List.mem_map.mp member
    exact (renderConflictSet_ok (each p inside)).2

theorem renderUpsert_ok {conflict : Option OnConflict}
    (success : (renderUpsert c conflict).result = .ok s) : Upserts c conflict s := by
  cases conflict with
  | none =>
    simp only [renderUpsert, Render.result_pure, Except.ok.injEq] at success
    exact success ▸ .none
  | some conflict =>
    obtain ⟨target, action⟩ := conflict
    cases style : c.dialect.upsertStyle <;> simp only [renderUpsert, style] at success
    case unsupported => simp at success
    case onConflict =>
      simp only [renderOnConflict, Render.bind_ok_iff, Render.lift_eq,
        Render.result_ofExcept] at success
      obtain ⟨columns, written, success⟩ := success
      cases action with
      | doNothing =>
        simp only [Render.result_pure, Except.ok.injEq] at success
        exact success ▸ .skip style written
      | doUpdate updates =>
        dsimp only at success
        split at success
        · simp at success
        · rename_i aimed
          split at success
          · simp at success
          · rename_i full
            simp only [Render.bind_ok_iff, Render.result_pure, Except.ok.injEq] at success
            obtain ⟨sets, made, rfl⟩ := success
            obtain ⟨rfl, styled⟩ := renderConflictSets_ok made
            exact .update style written (by simpa using aimed) (by simpa using full) styled
    case onDuplicateKey =>
      simp only [renderOnDuplicateKey] at success
      cases action with
      | doNothing =>
        simp only [Render.result_pure, Except.ok.injEq] at success
        exact success ▸ .ignore style
      | doUpdate updates =>
        dsimp only at success
        split at success
        · simp at success
        · rename_i full
          simp only [Render.bind_ok_iff, Render.result_pure, Except.ok.injEq] at success
          obtain ⟨sets, made, rfl⟩ := success
          obtain ⟨rfl, styled⟩ := renderConflictSets_ok made
          exact .duplicate style (by simpa using full) styled

end Success
end TypedSql
