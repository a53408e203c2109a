import TypedSql.Proofs.Sql.ParamSet
import TypedSql.Render.Statement

namespace TypedSql

section Uses
variable (d : Dialect) (style : PlaceholderStyle)

/-- A use is numbered by the place that its name has when all uses are recorded. -/
theorem spellUses_eq (params : ParamSet) (uses : List Hole) :
    spellUses d style params uses =
      (uses.map (spellHole d style (params.insertAll (uses.map Hole.name))),
        params.insertAll (uses.map Hole.name)) := by
  induction uses generalizing params with
  | nil => rfl
  | cons use rest ih =>
    have later : params.insertAll ((use :: rest).map Hole.name) =
        (params.insert use.name).2.insertAll (rest.map Hole.name) := rfl
    have own : spellHole d style (params.insertAll ((use :: rest).map Hole.name)) use =
        d.placeholder style use.name (params.insert use.name).1 := by
      rw [spellHole, later, ParamSet.position_insertAll]
    rw [List.map_cons, own, later]
    simp only [spellUses, ih]

theorem Sql.write_fill (spell other : Hole → String) (s : Sql) :
    (s.fill (s.holes.map spell)).write d other = s.write d spell := by
  induction s with
  | nil => rfl
  | cons piece rest ih =>
    cases piece <;>
      simpa [fill, holes, List.filterMap_cons, Piece.hole?, write, Piece.write] using ih

def Sql.finish (params : ParamSet) (s : Sql) : Rendered where
  sql := s.write d (spellHole d style params)
  params := params.names

end Uses

namespace RenderOptions
variable {options : RenderOptions} {build : Context → Render Sql}

theorem run_eq_map (options : RenderOptions) (build : Context → Render Sql) :
    ∃ spell, options.run build = (build (.top options)).result.map spell := by
  simp only [run, Render.text]
  cases (build (.top options)).result with
  | ok s => exact ⟨fun _ => _, rfl⟩
  | error e => exact ⟨fun _ => ⟨"", []⟩, rfl⟩

theorem run_eq_error_iff {e : RenderError} :
    options.run build = .error e ↔ (build (.top options)).result = .error e := by
  obtain ⟨spell, run⟩ := run_eq_map options build
  rw [run]
  cases (build (.top options)).result <;> simp [Except.map]

theorem run_ok_iff :
    (∃ r, options.run build = .ok r) ↔ ∃ s, (build (.top options)).result = .ok s := by
  obtain ⟨spell, run⟩ := run_eq_map options build
  rw [run]
  cases (build (.top options)).result <;> simp [Except.map]

theorem run_of_recorded {s : Sql} (made : build (.top options) = ⟨s.holes, .ok s⟩) :
    options.run build =
      .ok (s.finish options.dialect options.placeholders (.ofList (s.holes.map Hole.name))) := by
  simp only [run, Render.text, made, spellUses_eq, Except.map, Sql.write_fill]
  rfl

end RenderOptions

end TypedSql
