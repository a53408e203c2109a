import TypedSql.Proofs.Placeholders
import TypedSql.Proofs.Render.Simulated

namespace TypedSql

/-- What renders at all renders again where the ceiling leaves room for it, and otherwise fails at
    the first level above. -/
def Capped {α β : Type} (c : Context) (k : Nat) (f : α → β) (x : Render α) (y : Render β) : Prop :=
  c.depth ≤ c.ceiling → ∀ a, x.result = .ok a →
    y.result = if c.depth + k ≤ c.ceiling then .ok (f a)
      else .error (.depthExceeded (c.ceiling + 1) c.ceiling)

def Context.Alike (c c' : Context) : Prop :=
  c'.dialect = c.dialect ∧ c'.style = c.style ∧ c'.depth = c.depth

namespace Capped
variable {α β γ δ : Type} {c c' : Context} {k l : Nat} {f : α → β} {g : γ → δ} {x : Render α}
  {y : Render β} {next : α → Render γ} {next' : β → Render δ}

theorem pure (c : Context) (f : α → β) (a : α) : Capped c 0 f (Pure.pure a) (Pure.pure (f a)) := by
  intro room b same
  cases same
  simp [room]

theorem fail (c : Context) (k : Nat) (f : α → β) (e : RenderError) :
    Capped c k f (Render.fail e) (Render.fail e) := by
  intro room a success
  simp at success

theorem bind (first : Capped c k f x y) (rest : ∀ a, Capped c l g (next a) (next' (f a))) :
    Capped c (max k l) g (x >>= next) (y >>= next') := by
  intro room b success
  obtain ⟨a, made, more⟩ := Render.bind_ok_iff.mp success
  rw [Render.result_bind, first room a made]
  by_cases fits : c.depth + k ≤ c.ceiling
  · have second := rest a room b more
    have both : c.depth + max k l ≤ c.ceiling ↔ c.depth + l ≤ c.ceiling := by omega
    simp only [fits, ↓reduceIte, both]
    exact second
  · have neither : ¬ c.depth + max k l ≤ c.ceiling := by omega
    simp only [fits, neither, ↓reduceIte]
    rfl

theorem param (alike : c.Alike c') (p : Param) :
    Capped c' 0 (Sql.move id) (c.param p) (c'.param p) := by
  intro room s made
  obtain ⟨dialect, style, depth⟩ := alike
  obtain ⟨styled, rfl⟩ := Context.param_ok_iff.mp made
  have styled' : c'.HasPlaceholders := by
    simpa [Context.HasPlaceholders, dialect, style] using styled
  have same : c'.placeholder p = c.placeholder p := by simp [Context.placeholder, depth]
  simp [Context.param_eq styled', same, room]

theorem enter {inner : Context → Render α} {inner' : Context → Render β} (alike : c.Alike c')
    (each : ∀ child child', child.Alike child' → Capped child' k f (inner child) (inner' child')) :
    Capped c' (k + 1) f (Render.ofExcept c.enter >>= inner) (Render.ofExcept c'.enter >>= inner') := by
  intro room a success
  obtain ⟨child, entered, made⟩ := Render.bind_ok_iff.mp success
  have opened : child = { c with depth := c.depth + 1 } := by
    simp only [Render.result_ofExcept, Context.enter] at entered
    split at entered
    · exact (Except.ok.inj entered).symm
    · cases entered
  obtain ⟨dialect, style, depth⟩ := alike
  by_cases fits : c'.depth + 1 ≤ c'.ceiling
  · have inside := each child { c' with depth := c'.depth + 1 }
      (by simp [Context.Alike, opened, dialect, style, depth]) fits a made
    have same : c'.depth + (k + 1) = c'.depth + 1 + k := by omega
    simp only [Context.enter, fits, ↓reduceIte, Render.ofExcept_ok_bind, same]
    exact inside
  · have full : c'.depth = c'.ceiling := by omega
    have above : ¬ c'.depth + (k + 1) ≤ c'.ceiling := by omega
    simp only [Context.enter, fits, above, ↓reduceIte]
    rw [full]
    rfl

end Capped

def Simulation.underCeiling : Simulation where
  move := id
  Beside := Context.Alike
  Follows := Capped
  dialect_eq alike := alike.1
  pure := Capped.pure
  fail := Capped.fail
  bind := Capped.bind
  param := Capped.param
  enter := Capped.enter

/-- The ceiling is exact and otherwise without effect: what renders under one renders to the same
    under each that its subqueries stay below, and under all others it fails at the first level too
    deep. -/
theorem Statement.ceiling_exact {statement : Statement} {options : RenderOptions} {r : Rendered}
    (rendered : statement.toSql options = .ok r) :
    ((∃ q, (Part.statement statement).Encloses statement.nesting q) ∧
        ∀ depth q, (Part.statement statement).Encloses depth q → depth ≤ statement.nesting) ∧
      ∀ ceiling : UInt64,
        (statement.nesting ≤ ceiling.toNat →
          statement.toSql { options with maxSubqueryDepth := ceiling } = .ok r) ∧
        (ceiling.toNat < statement.nesting →
          statement.toSql { options with maxSubqueryDepth := ceiling } =
            .error (.depthExceeded (ceiling.toNat + 1) ceiling.toNat)) := by
  refine ⟨statement.nesting_greatest, fun ceiling => ?_⟩
  let other : RenderOptions := { options with maxSubqueryDepth := ceiling }
  have beside : Simulation.underCeiling.Beside (.top options) (.top other) := ⟨rfl, rfl, rfl⟩
  obtain ⟨s, made, rfl⟩ := Statement.toSql_ok_iff.mp rendered
  have success : (statement.render (.top options)).result = .ok s := by rw [made.render_eq]
  have along : (statement.render (.top other)).result =
      if 0 + statement.nesting ≤ ceiling.toNat then .ok (s.move id)
      else .error (.depthExceeded (ceiling.toNat + 1) ceiling.toNat) :=
    Simulation.underCeiling.statement beside statement (Nat.zero_le _) s success
  rw [Nat.zero_add, Sql.move_id] at along
  constructor
  · intro fits
    rw [if_pos fits] at along
    exact Statement.toSql_ok_iff.mpr ⟨s, Statement.renders_of_ok along, rfl⟩
  · intro exceeds
    rw [if_neg (by omega)] at along
    exact RenderOptions.run_eq_error_iff.mpr along

def lostFirst : Statement :=
  let lost : Query :=
    { operation := .select, table := { name := "losses" }, fields := [⟨.field { name := "id" }, none⟩]
      filter := some (.simple { name := "seen" } .eq (some idParam)) }
  let parcels : Query :=
    { operation := .count, table := { name := "parcels" }
      filter := some (.subquery (some { name := "id" }) .isIn lost) }
  .query
    { operation := .select, table := { name := "orders" }
      orderBy := [⟨.case ⟨[⟨.subquery none .exists parcels, idParam⟩], none⟩, .asc, none⟩] }

def lostFirstSent : Rendered where
  sql := "SELECT * FROM \x22orders\x22 ORDER BY CASE WHEN EXISTS (SELECT COUNT(*) FROM " ++
    "\x22parcels\x22 WHERE \x22id\x22 IN (SELECT \x22id\x22 FROM \x22losses\x22 WHERE " ++
    "\x22seen\x22 = :sq2_id)) THEN :id END ASC"
  params := ["sq2_id", "id"]

theorem lostFirst_ceiling :
    lostFirst.toSql {} = .ok lostFirstSent ∧ lostFirst.nesting = 2 ∧
      lostFirst.toSql { maxSubqueryDepth := 2 } = .ok lostFirstSent ∧
      lostFirst.toSql { maxSubqueryDepth := 1 } = .error (.depthExceeded 2 1) := by
  have rendered : lostFirst.toSql {} = .ok lostFirstSent := rfl
  have nested : lostFirst.nesting = 2 := by decide
  have ceilings := (Statement.ceiling_exact rendered).2
  have fits := (ceilings 2).1 (by rw [nested]; decide)
  have exceeds := (ceilings 1).2 (by rw [nested]; decide)
  exact ⟨rendered, nested, fits, exceeds⟩

end TypedSql
