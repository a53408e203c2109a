import TypedSql.Proofs.Render.Success
import TypedSql.Render.Window

namespace TypedSql.WindowCall

def shifts (w : WindowCall) (c : Context) : List Sql :=
  match w.offset, w.fallback with
  | none, none => []
  | some offset, none => [c.placeholder offset]
  | some offset, some fallback => [c.placeholder offset, c.placeholder fallback]
  | none, some fallback => [sql "1", c.placeholder fallback]

def IsRanking (w : WindowCall) : Prop :=
  w.function = .rowNumber ∨ w.function = .rank ∨ w.function = .denseRank

def IsShift (w : WindowCall) : Prop := w.function = .lag ∨ w.function = .lead

def IsEdge (w : WindowCall) : Prop := w.function = .firstValue ∨ w.function = .lastValue

theorem absent_of_checkOperands {w : WindowCall} (checked : w.checkOperands = .ok ()) :
    (w.function ≠ .ntile → w.bucket = none) ∧
      (¬ w.IsShift → w.offset = none ∧ w.fallback = none) := by
  unfold checkOperands at checked
  split at checked
  · cases checked
  · rename_i tiles
    split at checked
    · cases checked
    · rename_i shifts
      constructor
      · intro other
        simpa [other] using tiles
      · intro other
        simp only [IsShift, not_or] at other
        simpa [other.1, other.2] using shifts

/-- How the call before OVER comes about. -/
inductive Calls (c : Context) : WindowCall → Sql → Prop where
  | ranking {w} (checked : w.checkOperands = .ok ()) (ranks : w.IsRanking)
      (bare : w.field = none) : Calls c w (sql (w.function.display ++ "()"))
  | ntile {w bucket} (checked : w.checkOperands = .ok ()) (tiles : w.function = .ntile)
      (bare : w.field = none) (given : w.bucket = some bucket) (styled : c.HasPlaceholders) :
      Calls c w (sql "NTILE(" ++ c.placeholder bucket ++ sql ")")
  | shift {w f column} (checked : w.checkOperands = .ok ()) (shifted : w.IsShift)
      (given : w.field = some f) (columned : f.render c.dialect = .ok column)
      (styled : w.shifts c ≠ [] → c.HasPlaceholders) :
      Calls c w
        (sql (w.function.display ++ "(") ++ Sql.commaList (column :: w.shifts c) ++ sql ")")
  | edge {w f column} (checked : w.checkOperands = .ok ()) (edged : w.IsEdge)
      (given : w.field = some f) (columned : f.render c.dialect = .ok column) :
      Calls c w (sql (w.function.display ++ "(") ++ column ++ sql ")")
  | aggregate {w kind column} (checked : w.checkOperands = .ok ())
      (aggregates : w.function = .aggregate kind)
      (columned : aggregateField c.dialect kind w.field .windowAggregateField = .ok column) :
      Calls c w
        (sql (kind.functionName ++ "(" ++ kind.qualifier) ++ column.getD (sql "*") ++ sql ")")

section Success
variable {w : WindowCall} {c : Context}

theorem shiftArguments_ok {column : Sql} {arguments : List Sql}
    (success : (w.shiftArguments c column).result = .ok arguments) :
    arguments = column :: w.shifts c ∧ (w.shifts c ≠ [] → c.HasPlaceholders) := by
  unfold shiftArguments at success
  unfold shifts
  cases offset : w.offset <;> cases fallback : w.fallback <;>
    simp only [offset, fallback, Render.bind_ok_iff, Context.param_ok_iff, Render.result_pure,
      Except.ok.injEq] at success ⊢
  · exact ⟨success.symm, fun some => absurd rfl some⟩
  · obtain ⟨_, ⟨styled, rfl⟩, rfl⟩ := success
    exact ⟨rfl, fun _ => styled⟩
  · obtain ⟨_, ⟨styled, rfl⟩, rfl⟩ := success
    exact ⟨rfl, fun _ => styled⟩
  · obtain ⟨_, ⟨styled, rfl⟩, _, ⟨_, rfl⟩, rfl⟩ := success
    exact ⟨rfl, fun _ => styled⟩

theorem renderRequired_ok_iff {f : Option Field} {missing : Missing} {d : Dialect} {s : Sql} :
    renderRequired f missing d = .ok s ↔ ∃ g, f = some g ∧ g.render d = .ok s := by
  cases f <;> simp [renderRequired]

theorem renderCall_ok {call : Sql} (success : (w.renderCall c).result = .ok call) :
    w.Calls c call := by
  unfold renderCall at success
  simp only [Render.bind_ok_iff, Render.lift_eq, Render.result_ofExcept] at success
  obtain ⟨_, checked, success⟩ := success
  split at success
  case h_1 ranks | h_2 ranks | h_3 ranks =>
    split at success
    · simp at success
    · rename_i bare
      simp only [Render.result_pure, Except.ok.injEq] at success
      subst success
      exact .ranking checked (by simp [IsRanking, ranks]) (by simpa using bare)
  case h_4 tiles =>
    split at success
    · simp at success
    · rename_i bare
      split at success
      · simp at success
      · rename_i bucket given
        simp only [Render.bind_ok_iff, Context.param_ok_iff, Render.result_pure,
          Except.ok.injEq] at success
        obtain ⟨_, ⟨styled, rfl⟩, rfl⟩ := success
        exact .ntile checked tiles (by simpa using bare) given styled
  case h_5 shifted | h_6 shifted =>
    simp only [Render.bind_ok_iff, Render.result_ofExcept, renderRequired_ok_iff,
      Render.result_pure, Except.ok.injEq] at success
    obtain ⟨column, ⟨f, given, columned⟩, arguments, made, rfl⟩ := success
    obtain ⟨rfl, styled⟩ := shiftArguments_ok made
    exact .shift checked (by simp [IsShift, shifted]) given columned styled
  case h_7 edged | h_8 edged =>
    simp only [Render.bind_ok_iff, Render.result_ofExcept, renderRequired_ok_iff,
      Render.result_pure, Except.ok.injEq] at success
    obtain ⟨column, ⟨f, given, columned⟩, rfl⟩ := success
    exact .edge checked (by simp [IsEdge, edged]) given columned
  case h_9 kind aggregates =>
    simp only [Render.bind_ok_iff, Render.result_ofExcept, Render.result_pure,
      Except.ok.injEq] at success
    obtain ⟨column, columned, rfl⟩ := success
    exact .aggregate checked aggregates columned

end Success
end TypedSql.WindowCall
