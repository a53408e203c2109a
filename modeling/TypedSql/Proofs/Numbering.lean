import TypedSql.Proofs.Placeholders
import TypedSql.Proofs.Render.Simulated
import TypedSql.Proofs.Sql.Respell

namespace TypedSql

/-- How a numbered rendering comes from a named one. Where placeholders have no numbers, the first
    parameter is refused. -/
structure Render.Renumbered {α β : Type} (d : Dialect) (f : α → β) (x : Render α) (y : Render β) :
    Prop where
  same : d.supports .numberedPlaceholders = true ∨ x.recorded = [] →
    y = ⟨x.recorded, x.result.map f⟩
  refused : d.supports .numberedPlaceholders = false → x.recorded ≠ [] →
    y.result = .error (.unsupported d .numberedPlaceholders)

section Renumbered
variable {d : Dialect} {α β γ δ : Type} {f : α → β} {g : γ → δ}

theorem Render.Renumbered.bind {x : Render α} {y : Render β} {next : α → Render γ}
    {next' : β → Render δ} (first : Render.Renumbered d f x y)
    (rest : ∀ a, Render.Renumbered d g (next a) (next' (f a))) :
    Render.Renumbered d g (x >>= next) (y >>= next') := by
  obtain ⟨recorded, result⟩ := x
  cases result with
  | error e =>
    constructor
    · intro allowed
      rw [first.same allowed]
      rfl
    · intro unnumbered some
      rw [Render.result_bind, first.refused unnumbered some]
      rfl
  | ok a =>
    constructor
    · intro allowed
      simp only [Render.mk_ok_bind, List.append_eq_nil_iff] at allowed
      rw [first.same (allowed.imp_right And.left)]
      simp only [Except.map, Render.mk_ok_bind, (rest a).same (allowed.imp_right And.right)]
    · intro unnumbered some
      by_cases none : recorded = []
      · rw [first.same (.inr none)]
        simp only [Except.map, Render.mk_ok_bind]
        exact (rest a).refused unnumbered (by simpa [none] using some)
      · rw [Render.result_bind, first.refused unnumbered none]
        rfl

theorem Context.renumbered_param {c : Context} (named : c.style = .named) (p : Param) :
    Render.Renumbered c.dialect (Sql.move id) (c.param p)
      ({ c with style := .numbered : Context }.param p) := by
  simp only [Context.param, named, Dialect.require]
  constructor
  · intro allowed
    have supported : c.dialect.supports .numberedPlaceholders = true := by simpa using allowed
    simp [supported, Except.map]
  · intro unnumbered _
    simp [unnumbered, Except.map]

theorem Context.renumbered_enter {c : Context} {inner : Context → Render α}
    {inner' : Context → Render β}
    (each : Render.Renumbered c.dialect f (inner { c with depth := c.depth + 1 })
      (inner' { c with depth := c.depth + 1, style := .numbered })) :
    Render.Renumbered c.dialect f (Render.ofExcept c.enter >>= inner)
      (Render.ofExcept { c with style := .numbered : Context }.enter >>= inner') := by
  unfold Context.enter
  split
  · rw [Render.ofExcept_ok_bind, Render.ofExcept_ok_bind]
    exact each
  · exact ⟨fun _ => rfl, fun _ some => absurd rfl some⟩

end Renumbered

def Simulation.numbering : Simulation where
  move := id
  Beside c c' := c.style = .named ∧ c' = { c with style := .numbered }
  Follows c _ f x y := Render.Renumbered c.dialect f x y
  dialect_eq beside := by rw [beside.2]
  pure c f a := ⟨fun _ => rfl, fun _ some => absurd rfl some⟩
  fail c k f e := ⟨fun _ => rfl, fun _ some => absurd rfl some⟩
  bind first rest := first.bind rest
  param beside p := by
    obtain ⟨named, rfl⟩ := beside
    exact Context.renumbered_param named p
  enter {c c' α β k f inner inner'} beside each := by
    obtain ⟨named, rfl⟩ := beside
    exact Context.renumbered_enter (c := c) (each { c with depth := c.depth + 1 } _ ⟨named, rfl⟩)

theorem Statement.render_renumbered (statement : Statement) (d : Dialect) (ceiling : UInt64) :
    Render.Renumbered d (Sql.move id) (statement.render (.top ⟨d, ceiling, .named⟩))
      (statement.render (.top ⟨d, ceiling, .numbered⟩)) := by
  have beside : Simulation.numbering.Beside (.top ⟨d, ceiling, .named⟩)
    (.top ⟨d, ceiling, .numbered⟩) := ⟨rfl, rfl⟩
  exact Simulation.numbering.statement beside statement

theorem Except.map_id {ε α : Type} (x : Except ε α) (f : α → α) (same : ∀ a, f a = a) :
    x.map f = x := by
  cases x <;> simp [Except.map, same]

section Positions

theorem Dialect.numberedPlaceholder_inj {d : Dialect} {i j : Nat}
    (same : d.numberedPlaceholder i = d.numberedPlaceholder j) : i = j := by
  have listed := congrArg String.toList same
  simp only [numberedPlaceholder, String.toList_append, List.append_cancel_left_eq,
    Nat.toString_eq_ofList_toDigits, String.toList_ofList] at listed
  rw [← Nat.ofDigitChars_ten_toDigits (n := i), listed, Nat.ofDigitChars_ten_toDigits]

def Dialect.numberMark : Dialect → Char
  | .postgres => '$'
  | .mySql | .sqlite => '?'
  | .sqlServer => '@'

theorem markedBy_numbered (d : Dialect) (params : ParamSet) :
    MarkedBy d.numberMark (spellHole d .numbered params) := by
  refine ⟨by cases d <;> decide, fun use => ?_⟩
  have sign : ∃ word, d.numberSign.toList = d.numberMark :: word ∧
      ∀ c ∈ word, isWordRest c = true := by
    cases d
    case sqlServer => exact ⟨['p'], by decide, List.forall_mem_singleton.mpr (by decide)⟩
    all_goals exact ⟨[], by decide, by simp⟩
  obtain ⟨word, spelled, whole⟩ := sign
  refine ⟨word ++ Nat.toDigits 10 (params.position use.name), ?_, fun c member => ?_⟩
  · simp [Dialect.numberedPlaceholder, spelled]
  · rcases List.mem_append.mp member with member | digit
    · exact whole c member
    · exact isWordRest_of_isDigit (isDigit_of_mem_toDigits digit)

theorem eraseDups_numbered (d : Dialect) (names : List String) :
    (names.map fun name => d.numberedPlaceholder ((ParamSet.ofList names).position name)).eraseDups =
      (List.range' 1 (ParamSet.ofList names).names.length).map d.numberedPlaceholder := by
  have listed := ParamSet.names_ofList names
  rw [eraseDups_map names, ← listed, ← ParamSet.map_position, List.map_map]
  · rfl
  · intro a first b _ same
    have known : a ∈ (ParamSet.ofList names).names := by rwa [listed, List.mem_eraseDups]
    have places := Dialect.numberedPlaceholder_inj same
    exact (List.idxOf_inj known).mp (by simpa [ParamSet.position_eq] using places)

end Positions

section Styles
variable {statement : Statement} {d : Dialect} {ceiling : UInt64}

/-- Where placeholders have numbers, the style makes no difference before the text is spelled. -/
theorem Statement.render_numbered (numbers : d.supports .numberedPlaceholders = true) :
    statement.render (.top ⟨d, ceiling, .numbered⟩) =
      statement.render (.top ⟨d, ceiling, .named⟩) := by
  rw [(statement.render_renumbered d ceiling).same (.inl numbers), Except.map_id _ _ Sql.move_id]

theorem Statement.error_numbered (numbers : d.supports .numberedPlaceholders = true)
    (e : RenderError) :
    statement.toSql ⟨d, ceiling, .named⟩ = .error e ↔
      statement.toSql ⟨d, ceiling, .numbered⟩ = .error e := by
  rw [Statement.toSql, Statement.toSql, RenderOptions.run_eq_error_iff,
    RenderOptions.run_eq_error_iff, Statement.render_numbered numbers]

/-- What is sent in numbered style, read off what is sent in named style. -/
theorem Statement.sent_numbered (numbers : d.supports .numberedPlaceholders = true) {r : Rendered}
    (rendered : statement.toSql ⟨d, ceiling, .named⟩ = .ok r) :
    ∃ tokens, d.lex r.sql.toList = some tokens ∧ d.textOf tokens = r.sql ∧
      statement.toSql ⟨d, ceiling, .numbered⟩ = .ok
        ⟨d.textOf (tokens.map (Token.respell d.mark fun name =>
          d.numberedPlaceholder (r.params.idxOf name + 1))), r.params⟩ := by
  obtain ⟨s, made, rfl⟩ := Statement.toSql_ok_iff.mp rendered
  obtain ⟨_, -, walked⟩ := made.walk
  let params := ParamSet.ofList (s.holes.map Hole.name)
  have spelled : spellHole d .numbered params =
      fun use => d.numberedPlaceholder (params.names.idxOf use.name + 1) := by
    funext use
    rw [spellHole_numbered, ParamSet.position_eq]
  have recorded : statement.render (.top ⟨d, ceiling, .numbered⟩) = ⟨s.holes, .ok s⟩ := by
    rw [Statement.render_numbered numbers, made.render_eq]
  refine ⟨s.tokens fun use => d.namedPlaceholder use.name, ?_, textOf_tokens s _, ?_⟩
  · exact lex_write (spellHole_inert d .named params) walked
  · rw [textOf_respell walked, Statement.toSql, RenderOptions.run_of_recorded recorded]
    show Except.ok (Rendered.mk (s.write d (spellHole d .numbered params)) params.names) = _
    rw [spelled]
    rfl

/-- In numbered style a placeholder has the number that the insertion of its name gives when the
    earlier uses are recorded. -/
theorem Statement.numbers_in_order {r : Rendered}
    (rendered : statement.toSql ⟨d, ceiling, .numbered⟩ = .ok r) :
    ∃ tokens, d.lex r.sql.toList = some tokens ∧
      (∀ i use, statement.uses[i]? = some use → (placeholders d.numberMark tokens)[i]? =
        some (d.numberedPlaceholder
          ((ParamSet.ofList ((statement.uses.take i).map Hole.name)).insert use.name).1)) ∧
      (placeholders d.numberMark tokens).eraseDups =
        (List.range' 1 r.params.length).map d.numberedPlaceholder := by
  obtain ⟨s, made, rfl⟩ := Statement.toSql_ok_iff.mp rendered
  obtain ⟨_, -, walked⟩ := made.walk
  have uses : s.holes = statement.uses := made.holes_eq rfl
  let params := ParamSet.ofList (s.holes.map Hole.name)
  have listed : placeholders d.numberMark (s.tokens (spellHole d .numbered params)) =
      (s.holes.map Hole.name).map fun name => d.numberedPlaceholder (params.position name) := by
    rw [placeholders_of_walk (markedBy_numbered d params) walked, List.map_map]
    rfl
  refine ⟨_, lex_write (spellHole_inert d .numbered params) walked, fun i use used => ?_, ?_⟩
  · have named : (s.holes.map Hole.name)[i]? = some use.name := by simp [uses, used]
    rw [listed, List.getElem?_map, named, Option.map_some, ParamSet.position_ofList named, uses,
      List.map_take]
  · rw [listed]
    exact eraseDups_numbered d _

theorem Statement.toSql_unnumbered (unnumbered : d.supports .numberedPlaceholders = false)
    {r : Rendered} (rendered : statement.toSql ⟨d, ceiling, .named⟩ = .ok r) :
    ((∃ r', statement.toSql ⟨d, ceiling, .numbered⟩ = .ok r') ↔ statement.uses = []) ∧
      (statement.uses = [] → statement.toSql ⟨d, ceiling, .numbered⟩ = .ok r) := by
  have along := statement.render_renumbered d ceiling
  obtain ⟨s, made, rfl⟩ := Statement.toSql_ok_iff.mp rendered
  have uses : s.holes = statement.uses := made.holes_eq rfl
  rw [made.render_eq] at along
  have same (none : statement.uses = []) : statement.toSql ⟨d, ceiling, .numbered⟩ =
      .ok (s.finish d .named (ParamSet.ofList (s.holes.map Hole.name))) := by
    have silent : s.holes = [] := uses.trans none
    have recorded : statement.render (.top ⟨d, ceiling, .numbered⟩) = ⟨s.holes, .ok s⟩ := by
      rw [along.same (.inr silent), Except.map, Sql.move_id]
    have text : s.write d (spellHole d .numbered (.ofList (s.holes.map Hole.name))) =
        s.write d (spellHole d .named (.ofList (s.holes.map Hole.name))) :=
      Sql.write_congr d (by simp [silent])
    rw [Statement.toSql, RenderOptions.run_of_recorded recorded, Sql.finish, Sql.finish, text]
  refine ⟨⟨?_, fun none => ⟨_, same none⟩⟩, same⟩
  rintro ⟨r', success⟩
  by_contra some
  have refused := along.refused unnumbered (by simpa [uses] using some)
  rw [Statement.toSql, RenderOptions.run_eq_error_iff.mpr refused] at success
  cases success

end Styles

/-- Named and numbered text are the same statement: it fails in one style as in the other, and the
    numbered text is the named one with each placeholder replaced by the place of its name among
    the parameters. That place is what the insertion of the name gave at this use, so that the
    numbers count up from one. Where no numbers can be written, only statements without parameters
    render, to the same text. -/
theorem Statement.numbered_is_named (statement : Statement) (ceiling : UInt64) :
    (∀ d sign, (d, sign) ∈ [(Dialect.postgres, "$"), (.sqlite, "?"), (.sqlServer, "@p")] →
      (∀ e, statement.toSql ⟨d, ceiling, .named⟩ = .error e ↔
        statement.toSql ⟨d, ceiling, .numbered⟩ = .error e) ∧
      ∀ r, statement.toSql ⟨d, ceiling, .named⟩ = .ok r →
        ∃ tokens r' tokens', d.lex r.sql.toList = some tokens ∧ d.textOf tokens = r.sql ∧
          statement.toSql ⟨d, ceiling, .numbered⟩ = .ok r' ∧ r'.params = r.params ∧
          r'.sql = d.textOf (tokens.map (Token.respell d.mark fun name =>
            sign ++ toString (r.params.idxOf name + 1))) ∧
          d.lex r'.sql.toList = some tokens' ∧
          (∀ i use, statement.uses[i]? = some use → (placeholders d.numberMark tokens')[i]? =
            some (sign ++ toString
              ((ParamSet.ofList ((statement.uses.take i).map Hole.name)).insert use.name).1)) ∧
          (placeholders d.numberMark tokens').eraseDups =
            (List.range' 1 r.params.length).map fun i => sign ++ toString i) ∧
    ∀ r, statement.toSql ⟨.mySql, ceiling, .named⟩ = .ok r →
      ((∃ r', statement.toSql ⟨.mySql, ceiling, .numbered⟩ = .ok r') ↔ statement.uses = []) ∧
        (statement.uses = [] → statement.toSql ⟨.mySql, ceiling, .numbered⟩ = .ok r) := by
  refine ⟨fun d sign listed => ?_, fun r rendered => Statement.toSql_unnumbered rfl rendered⟩
  have signs : d.supports .numberedPlaceholders = true ∧ d.numberSign = sign := by
    simp only [List.mem_cons, Prod.mk.injEq, List.not_mem_nil, or_false] at listed
    rcases listed with ⟨rfl, rfl⟩ | ⟨rfl, rfl⟩ | ⟨rfl, rfl⟩ <;> exact ⟨rfl, rfl⟩
  obtain ⟨numbers, rfl⟩ := signs
  refine ⟨Statement.error_numbered numbers, fun r rendered => ?_⟩
  obtain ⟨tokens, read, whole, numbered⟩ := Statement.sent_numbered numbers rendered
  obtain ⟨tokens', read', inserted, counted⟩ := Statement.numbers_in_order numbered
  exact ⟨tokens, _, tokens', read, whole, numbered, rfl, rfl, read', inserted, counted⟩

theorem readingTwice_numbered :
    readingTwice.toSql {} = .ok readingTwiceSent ∧
      (∃ tokens r, Dialect.postgres.lex readingTwiceSent.sql.toList = some tokens ∧
        readingTwice.toSql { placeholders := .numbered } = .ok r ∧ r.params = ["id", "sq1_id"] ∧
        r.sql = Dialect.postgres.textOf (tokens.map (Token.respell ':' fun name =>
          "$" ++ toString (readingTwiceSent.params.idxOf name + 1)))) ∧
      ¬ ∃ r, readingTwice.toSql ⟨.mySql, 3, .numbered⟩ = .ok r := by
  obtain ⟨styles, unnumbered⟩ := Statement.numbered_is_named readingTwice 3
  have rendered : readingTwice.toSql {} = .ok readingTwiceSent := rfl
  obtain ⟨-, respelled⟩ := styles .postgres "$" (by decide)
  obtain ⟨tokens, r, _, read, -, numbered, params, text, -⟩ := respelled _ rendered
  refine ⟨rendered, ⟨tokens, r, read, numbered, params, text⟩, ?_⟩
  have sent : ∃ r, readingTwice.toSql ⟨.mySql, 3, .named⟩ = .ok r := ⟨⟨_, _⟩, by rfl⟩
  obtain ⟨r, mySql⟩ := sent
  rw [(unnumbered r mySql).1]
  decide +kernel

end TypedSql
