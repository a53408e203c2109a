import TypedSql.Proofs.Placeholders
import TypedSql.Proofs.Render.Simulated
import TypedSql.Proofs.Sql.Respell

namespace TypedSql

def Hole.deeper (levels : Nat) (use : Hole) : Hole := { use with depth := use.depth + levels }

/-- The name of a placeholder that many levels further inside: `x` becomes `sq1_x`, `sq1_x`
    becomes `sq2_x`. -/
def deeperName (levels : Nat) (name : String) : String :=
  if hasSubqueryPrefix name.toList then
    let digits := (name.toList.drop 2).takeWhile Char.isDigit
    "sq" ++ toString (Nat.ofDigitChars 10 digits 0 + levels) ++
      String.ofList (name.toList.drop (2 + digits.length))
  else depthPrefix levels ++ name

theorem deeperName_name (levels : Nat) (use : Hole) :
    deeperName levels use.name = (use.deeper levels).name := by
  obtain ⟨depth, p⟩ := use
  by_cases outer : depth = 0
  · subst outer
    have plain : hasSubqueryPrefix p.name.toList = false := p.admits.2
    simp [deeperName, Hole.name, Hole.deeper, plain, depthPrefix]
  · have generated : hasSubqueryPrefix (Hole.mk depth p).name.toList = true :=
      hasSubqueryPrefix_name outer
    have spelled : (Hole.mk depth p).name.toList =
        's' :: 'q' :: (Nat.toDigits 10 depth ++ '_' :: p.name.toList) := by
      simp [Hole.name, toList_depthPrefix outer]
    have digits : (Nat.toDigits 10 depth ++ '_' :: p.name.toList).takeWhile Char.isDigit =
        Nat.toDigits 10 depth := by
      rw [List.takeWhile_append_of_pos fun c => isDigit_of_mem_toDigits]
      simp
    have inner : depthPrefix (depth + levels) = "sq" ++ toString (depth + levels) ++ "_" :=
      if_neg (by omega)
    rw [deeperName, if_pos generated, spelled]
    simp only [List.drop_succ_cons, List.drop_zero, digits, Nat.ofDigitChars_ten_toDigits]
    rw [← String.toList_inj]
    simp [Hole.name, Hole.deeper, inner, Nat.add_comm 2]

section Levels
variable {levels : Nat}

theorem Hole.deeper_inj {a b : Hole} (same : a.deeper levels = b.deeper levels) : a = b := by
  obtain ⟨depth, p⟩ := a
  obtain ⟨depth', p'⟩ := b
  simpa [Hole.deeper] using same

/-- The same place that many levels further inside, with as many more allowed. -/
def Context.Inside (levels : Nat) (c c' : Context) : Prop :=
  c'.dialect = c.dialect ∧ c'.style = c.style ∧ c'.depth = c.depth + levels ∧
    c.ceiling + levels ≤ c'.ceiling

/-- What renders at all renders again, to what it is taken to. -/
def Carried {α β : Type} (f : α → β) (x : Render α) (y : Render β) : Prop :=
  ∀ a, x.result = .ok a → y.result = .ok (f a)

namespace Carried
variable {α β γ δ : Type} {c c' : Context} {f : α → β} {g : γ → δ} {x : Render α} {y : Render β}
  {next : α → Render γ} {next' : β → Render δ}

theorem pure (f : α → β) (a : α) : Carried f (Pure.pure a) (Pure.pure (f a)) := by
  intro b same
  cases same
  rfl

theorem fail (f : α → β) (e : RenderError) : Carried f (Render.fail e) (Render.fail e) := by
  intro a success
  simp at success

theorem bind (first : Carried f x y) (rest : ∀ a, Carried g (next a) (next' (f a))) :
    Carried g (x >>= next) (y >>= next') := by
  intro b success
  obtain ⟨a, made, more⟩ := Render.bind_ok_iff.mp success
  exact Render.bind_ok_iff.mpr ⟨_, first a made, rest a b more⟩

theorem param (inside : c.Inside levels c') (p : Param) :
    Carried (Sql.move (Hole.deeper levels)) (c.param p) (c'.param p) := by
  intro s made
  obtain ⟨dialect, style, depth, -⟩ := inside
  obtain ⟨styled, rfl⟩ := Context.param_ok_iff.mp made
  refine Context.param_ok_iff.mpr ⟨by simpa [Context.HasPlaceholders, dialect, style], ?_⟩
  simp [Context.placeholder, depth, Sql.move, Piece.move, Hole.deeper]

theorem enter {inner : Context → Render α} {inner' : Context → Render β}
    (inside : c.Inside levels c')
    (each : ∀ child child', child.Inside levels child' → Carried f (inner child) (inner' child')) :
    Carried f (Render.ofExcept c.enter >>= inner) (Render.ofExcept c'.enter >>= inner') := by
  intro a success
  obtain ⟨dialect, style, depth, room⟩ := inside
  obtain ⟨child, entered, made⟩ := Render.bind_ok_iff.mp success
  simp only [Render.result_ofExcept, Context.enter] at entered
  split at entered
  · rename_i fits
    obtain rfl := Except.ok.inj entered
    have fits' : c'.depth + 1 ≤ c'.ceiling := by omega
    refine Render.bind_ok_iff.mpr ⟨{ c' with depth := c'.depth + 1 }, ?_, ?_⟩
    · simp [Context.enter, fits']
    · refine each { c with depth := c.depth + 1 } { c' with depth := c'.depth + 1 }
        ⟨dialect, style, ?_, room⟩ a made
      simp [depth, Nat.add_right_comm]
  · cases entered

end Carried

def Simulation.deeper (levels : Nat) : Simulation where
  move := Hole.deeper levels
  Beside := Context.Inside levels
  Follows _ _ := Carried
  dialect_eq inside := inside.1
  pure _ := Carried.pure
  fail _ _ := Carried.fail
  bind := Carried.bind
  param := Carried.param
  enter := Carried.enter

/-- What renders somewhere renders deeper inside to the same, with all its parameters as much
    deeper. -/
theorem Query.renders_deeper {q : Query} {c c' : Context} {s : Sql}
    (beside : (Simulation.deeper levels).Beside c c') (made : Renders c (.query q) s) :
    Renders c' (.query q) (s.move (Hole.deeper levels)) := by
  have success : (q.render c).result = .ok s := by
    have rendering : q.render c = ⟨s.holes, .ok s⟩ := made.render_eq
    rw [rendering]
  have along := (Part.query q).kept (Simulation.deeper levels) c c' beside s success
  exact Query.renders_of_ok along

end Levels

/-- A selection of the rows for which there is something in a subquery. -/
def Query.enclosing (outer q : Query) : Query :=
  { outer with filter := some (.subquery none .exists q) }

def Query.within (outers : List Query) (q : Query) : Query := outers.foldr Query.enclosing q

section Enclosing
variable {c child : Context} {outer q : Query} {t s : Sql}

theorem Query.checkClauses_enclosing (operation : outer.operation = .select)
    (clauses : outer.checkClauses = .ok ()) : (outer.enclosing q).checkClauses = .ok () := by
  have absent := outer.isPresent_eq_false clauses
  have none : Clause.all.find? (fun clause =>
      !(outer.enclosing q).operation.clauses.contains clause &&
        clause.isPresent (outer.enclosing q)) = none := by
    refine List.find?_eq_none.mpr fun clause _ => ?_
    by_cases place : clause ∈ outer.operation.clauses
    · simp [Query.enclosing, place]
    · have elsewhere : clause.isPresent (outer.enclosing q) = clause.isPresent outer := by
        cases clause with
        | filter => exact absurd (by rw [operation]; decide) place
        | _ => rfl
      simp [elsewhere, absent clause place]
  rw [Query.checkClauses, none]

theorem Renders.enclosing (operation : outer.operation = .select) (unfiltered : outer.filter = none)
    (made : Renders c (.query outer) t) (reading : checkSubquery q.operation = .ok ())
    (entered : c.enter = .ok child) (inner : Renders child (.query q) s) :
    ∃ before after, t = before ++ after ∧ Renders c (.query (outer.enclosing q))
      (before ++ sql " WHERE " ++ (sql "EXISTS " ++ Sql.parenthesised s) ++ after) := by
  cases made with
  | @select _ _ distinct lock groupBy fields joins filter having items _ clauses rules distinctly
      fieldsListed projects locks joinsListed joined filterGiven filters groups havingGiven havings
      itemsListed order =>
    have none : filter = none := by
      cases filter with
      | none => rfl
      | some x => simp [unfiltered] at filterGiven
    subst none
    let condition := (Condition.subquery none .exists q, sql "EXISTS " ++ Sql.parenthesised s)
    have tested : ∀ x ∈ some condition, Renders c (.condition .whereClause false x.1) x.2 := by
      rintro _ ⟨⟩
      exact .subquery rfl reading entered inner
    have enclosed := Renders.select (q := outer.enclosing q) operation
      (Query.checkClauses_enclosing operation clauses) rules distinctly fieldsListed projects locks
      joinsListed joined rfl tested groups havingGiven havings itemsListed order
    let before := sql "SELECT " ++ distinct ++ projection (fields.map Prod.snd) ++ sql " FROM " ++
      outer.table.render ++ lock.1 ++ (joins.map Prod.snd).flatten
    let after := groupBy ++ conditional "HAVING" (having.map Prod.snd) ++
      orderClause (items.map Prod.snd) ++
      sql (c.dialect.pagination outer.limit outer.offset (!outer.orderBy.isEmpty)) ++ lock.2
    refine ⟨before, after, ?_, ?_⟩
    · simp [before, after, Query.selectText, conditional]
    · have keyword : conditional "WHERE" ((some condition).map Prod.snd) =
          sql " WHERE " ++ (sql "EXISTS " ++ Sql.parenthesised s) := rfl
      simp only [Query.selectText, keyword, List.append_assoc] at enclosed
      simp only [before, after, List.append_assoc]
      exact enclosed
  | count other => simp [operation] at other
  | insert other => simp [operation] at other
  | update other => simp [operation] at other
  | delete other => simp [operation] at other

end Enclosing

def wrapped (half : Sql × Sql) (inner : Sql) : Sql :=
  half.1 ++ sql " WHERE " ++ (sql "EXISTS " ++ Sql.parenthesised inner) ++ half.2

/-- A chain of selections around a query, each of which renders on its own at its place. -/
theorem Query.renders_within {Alone : Query → Sql → Prop} {q : Query} {s : Sql}
    (reading : q.operation = .select ∨ q.operation = .count) {outers : List Query} {c : Context}
    (room : c.depth + outers.length ≤ c.ceiling)
    (each : ∀ i o, outers[i]? = some o → o.operation = .select ∧ o.filter = none ∧
      ∃ t, Alone o t ∧ Renders { c with depth := c.depth + i } (.query o) t)
    (inner : Renders { c with depth := c.depth + outers.length } (.query q) s) :
    ∃ halves : List (Sql × Sql),
      List.Forall₂ (fun o half => Alone o (half.1 ++ half.2)) outers halves ∧
        Renders c (.query (q.within outers)) (halves.foldr wrapped s) := by
  induction outers generalizing c with
  | nil => exact ⟨[], .nil, inner⟩
  | cons outer rest ih =>
    simp only [List.length_cons] at room inner
    obtain ⟨operation, unfiltered, t, alone, made⟩ := each 0 outer rfl
    have entered : c.enter = .ok { c with depth := c.depth + 1 } := if_pos (by omega)
    have within : (c.depth + 1) + rest.length = c.depth + (rest.length + 1) := by omega
    obtain ⟨halves, listed, deeper⟩ := @ih { c with depth := c.depth + 1 } (by simp only; omega)
      (fun i o member => by
        have same : c.depth + 1 + i = c.depth + (i + 1) := by omega
        simpa only [same] using each (i + 1) o member) (by simpa only [within] using inner)
    have reads : checkSubquery (q.within rest).operation = .ok () := by
      cases rest with
      | nil => rcases reading with read | read <;> simp [Query.within, read, checkSubquery]
      | cons o rest =>
        have select := (each 1 o rfl).1
        simp [Query.within, Query.enclosing, select, checkSubquery]
    obtain ⟨before, after, rfl, enclosed⟩ := made.enclosing operation unfiltered reads entered deeper
    exact ⟨(before, after) :: halves, .cons alone listed, enclosed⟩

section Names
variable {levels : Nat}

theorem names_deeper (s : Sql) : (s.move (Hole.deeper levels)).holes.map Hole.name =
    (s.holes.map Hole.name).map (deeperName levels) := by
  simp [deeperName_name]

theorem deeperName_inj {s : Sql} : ∀ a ∈ s.holes.map Hole.name, ∀ b ∈ s.holes.map Hole.name,
    deeperName levels a = deeperName levels b → a = b := by
  simp only [List.mem_map]
  rintro _ ⟨use, -, rfl⟩ _ ⟨other, -, rfl⟩ same
  rw [deeperName_name, deeperName_name] at same
  rw [Hole.deeper_inj (Hole.name_inj same)]

theorem paramSet_deeper (s : Sql) :
    (ParamSet.ofList ((s.move (Hole.deeper levels)).holes.map Hole.name)).names =
      (ParamSet.ofList (s.holes.map Hole.name)).names.map (deeperName levels) := by
  rw [names_deeper, ParamSet.names_ofList, ParamSet.names_ofList, eraseDups_map _ deeperName_inj]

theorem position_deeper (s : Sql) {use : Hole} (member : use ∈ s.holes) :
    (ParamSet.ofList ((s.move (Hole.deeper levels)).holes.map Hole.name)).position
        (use.deeper levels).name =
      (ParamSet.ofList (s.holes.map Hole.name)).position use.name := by
  rw [ParamSet.position_eq, ParamSet.position_eq, paramSet_deeper, ← deeperName_name, idxOf_map]
  intro name listed same
  rw [ParamSet.names_ofList, List.mem_eraseDups] at listed
  exact deeperName_inj name listed _ (List.mem_map_of_mem member) same

end Names

section Wrapped
variable {d : Dialect} {spell : Hole → String} {halves : List (Sql × Sql)} (s : Sql)

def wrappedText (half : String × String) (inner : String) : String :=
  half.1 ++ " WHERE EXISTS (" ++ inner ++ ")" ++ half.2

theorem write_wrapped : (halves.foldr wrapped s).write d spell =
    (halves.map (Prod.map (Sql.write d spell) (Sql.write d spell))).foldr wrappedText
      (s.write d spell) := by
  induction halves with
  | nil => rfl
  | cons half rest ih =>
    have keywords : " WHERE EXISTS (" = " WHERE " ++ ("EXISTS " ++ "(") := by decide
    simp only [List.foldr_cons, List.map_cons, wrapped, wrappedText, Sql.write_append, ih,
      Sql.write_sql, Sql.parenthesised, Prod.map, keywords, String.append_assoc]

theorem holes_wrapped (silent : ∀ half ∈ halves, (half.1 ++ half.2).holes = []) :
    (halves.foldr wrapped s).holes = s.holes := by
  induction halves with
  | nil => rfl
  | cons half rest ih =>
    obtain ⟨own, others⟩ := List.forall_mem_cons.mp silent
    simp only [Sql.holes_append, List.append_eq_nil_iff] at own
    simp [wrapped, own, ih others]

end Wrapped

section Sent
variable {options : RenderOptions}

theorem Query.toSql_ok_iff {q : Query} {r : Rendered} :
    q.toSql options = .ok r ↔ ∃ s, Renders (.top options) (.query q) s ∧
      s.finish options.dialect options.placeholders (ParamSet.ofList (s.holes.map Hole.name)) = r := by
  have statement : q.toSql options = (Statement.query q).toSql options := rfl
  rw [statement, Statement.toSql_ok_iff]
  constructor
  · rintro ⟨s, ⟨made⟩, same⟩
    exact ⟨s, made, same⟩
  · rintro ⟨s, made, same⟩
    exact ⟨s, .query made, same⟩

theorem Sql.holes_of_params {s : Sql}
    (none : (ParamSet.ofList (s.holes.map Hole.name)).names = []) : s.holes = [] := by
  rw [ParamSet.names_ofList] at none
  cases written : s.holes with
  | nil => rfl
  | cons use rest => simp [written, List.eraseDups_cons] at none

theorem Query.renders_at {q : Query} {own ceiling : UInt64} {depth : Nat} {s : Sql}
    (fits : own.toNat + depth ≤ ceiling.toNat)
    (made : Renders (.top { options with maxSubqueryDepth := own }) (.query q) s) :
    Renders ⟨options.dialect, options.placeholders, 0 + depth, ceiling.toNat⟩ (.query q)
      (s.move (Hole.deeper depth)) := by
  have beside : (Simulation.deeper depth).Beside (.top { options with maxSubqueryDepth := own })
      ⟨options.dialect, options.placeholders, 0 + depth, ceiling.toNat⟩ := ⟨rfl, rfl, rfl, fits⟩
  exact Query.renders_deeper beside made

theorem Query.renders_alone {o : Query} {own ceiling : UInt64} {depth : Nat} {text : String}
    (fits : own.toNat + depth ≤ ceiling.toNat)
    (sent : o.toSql { options with maxSubqueryDepth := own } = .ok ⟨text, []⟩) :
    ∃ t, t.holes = [] ∧ (∀ spell, t.write options.dialect spell = text) ∧
      Renders ⟨options.dialect, options.placeholders, 0 + depth, ceiling.toNat⟩ (.query o) t := by
  obtain ⟨t, made, written⟩ := Query.toSql_ok_iff.mp sent
  simp only [Sql.finish, Rendered.mk.injEq] at written
  have silent : t.holes = [] := Sql.holes_of_params written.2
  refine ⟨t, silent, fun spell => ?_, ?_⟩
  · rw [← written.1]
    exact Sql.write_congr _ (by simp [silent])
  · have there := Query.renders_at fits made
    rwa [Sql.move_of_silent _ silent] at there

theorem Sql.write_deeper {s : Sql} {e : Edge} {n : Nat} {last : Edge × Nat}
    (walked : s.walk (e, n) = some last) (d : Dialect) (levels : Nat) :
    (s.move (Hole.deeper levels)).write d (spellHole d .named
        (.ofList ((s.move (Hole.deeper levels)).holes.map Hole.name))) =
      d.textOf ((s.tokens (spellHole d .named (.ofList (s.holes.map Hole.name)))).map
        (Token.respell d.mark fun name => d.namedPlaceholder (deeperName levels name))) ∧
    (s.move (Hole.deeper levels)).write d (spellHole d .numbered
        (.ofList ((s.move (Hole.deeper levels)).holes.map Hole.name))) =
      s.write d (spellHole d .numbered (.ofList (s.holes.map Hole.name))) := by
  rw [Sql.write_move, Sql.write_move]
  constructor
  · have respelled := textOf_respell (d := d) walked fun name =>
      d.namedPlaceholder (deeperName levels name)
    simp only [deeperName_name] at respelled
    exact respelled.symm
  · refine Sql.write_congr d fun use member => ?_
    simp only [spellHole_numbered, position_deeper s member]

/-- A query means the same wherever it stands: inside a chain of selections without parameters it
    is the text that it is alone, with the names of its placeholders a level deeper for each. -/
theorem Query.text_within {q : Query} (reading : q.operation = .select ∨ q.operation = .count)
    {r : Rendered} (rendered : q.toSql options = .ok r) (outers : List Query) {ceiling : UInt64}
    (room : ceiling.toNat = options.maxSubqueryDepth.toNat + outers.length)
    (each : ∀ i o, outers[i]? = some o → o.operation = .select ∧ o.filter = none ∧
      ∃ own text, own.toNat + i ≤ ceiling.toNat ∧
        o.toSql { options with maxSubqueryDepth := own } = .ok ⟨text, []⟩) :
    ∃ (halves : List (String × String)) (tokens : List Token) (inner : String),
      List.Forall₂ (fun o half => ∃ own, o.toSql { options with maxSubqueryDepth := own } =
        .ok ⟨half.1 ++ half.2, []⟩) outers halves ∧
      options.dialect.lex r.sql.toList = some tokens ∧
      (options.placeholders = .named →
        inner = options.dialect.textOf (tokens.map (Token.respell options.dialect.mark fun name =>
          options.dialect.namedPlaceholder (deeperName outers.length name)))) ∧
      (options.placeholders = .numbered → inner = r.sql) ∧
      (q.within outers).toSql { options with maxSubqueryDepth := ceiling } =
        .ok ⟨halves.foldr (fun half text => half.1 ++ " WHERE EXISTS (" ++ text ++ ")" ++ half.2) inner,
          r.params.map (deeperName outers.length)⟩ := by
  obtain ⟨s, made, rfl⟩ := Query.toSql_ok_iff.mp rendered
  let d := options.dialect
  let moved := s.move (Hole.deeper outers.length)
  let spell := spellHole d options.placeholders (.ofList (moved.holes.map Hole.name))
  let Alone (o : Query) (t : Sql) : Prop := t.holes = [] ∧
    ∃ own, o.toSql { options with maxSubqueryDepth := own } = .ok ⟨t.write d spell, []⟩
  have alone : ∀ i o, outers[i]? = some o → o.operation = .select ∧ o.filter = none ∧
      ∃ t, Alone o t ∧ Renders ⟨d, options.placeholders, 0 + i, ceiling.toNat⟩ (.query o) t := by
    intro i o member
    obtain ⟨operation, unfiltered, own, text, fits, sent⟩ := each i o member
    obtain ⟨t, silent, written, there⟩ := Query.renders_alone fits sent
    exact ⟨operation, unfiltered, t, ⟨silent, own, by rw [written, sent]⟩, there⟩
  have inside :
      Renders ⟨d, options.placeholders, 0 + outers.length, ceiling.toNat⟩ (.query q) moved :=
    Query.renders_at (Nat.le_of_eq room.symm) made
  have place : (⟨d, options.placeholders, 0, ceiling.toNat⟩ : Context).depth + outers.length ≤
      ceiling.toNat := by simp only; omega
  obtain ⟨halves, listed, whole⟩ := Query.renders_within reading place alone inside
  have silent : ∀ half ∈ halves, (half.1 ++ half.2).holes = [] := by
    obtain ⟨pairs, -, rfl, eachPair⟩ := exists_pairs listed
    exact List.forall_mem_map.mpr fun p member => (eachPair p member).1
  obtain ⟨_, -, walked⟩ := (Statement.Renders.query made).walk
  have texts := Sql.write_deeper walked d outers.length
  refine ⟨halves.map (Prod.map (Sql.write d spell) (Sql.write d spell)), _, moved.write d spell, ?_,
    lex_write (spellHole_inert _ _ _) walked, ?_, ?_, ?_⟩
  · rw [List.forall₂_map_right_iff]
    refine listed.imp fun o half alone => ?_
    obtain ⟨-, own, sent⟩ := alone
    exact ⟨own, by rw [sent, Sql.write_append]; rfl⟩
  · intro named
    simp only [spell, named]
    exact texts.1
  · intro numbered
    simp only [spell, Sql.finish, numbered]
    exact texts.2
  · refine Query.toSql_ok_iff.mpr ⟨halves.foldr wrapped moved, whole, ?_⟩
    rw [Sql.finish, holes_wrapped moved silent, write_wrapped, paramSet_deeper s]
    rfl

end Sent

def countedTwice : Query :=
  let inner : Query :=
    { operation := .select, table := { name := "b" }, fields := [⟨.field { name := "x" }, none⟩]
      filter := some (.simple { name := "y" } .eq (some idParam)) }
  { operation := .count, table := { name := "a" }
    filter := some (.group .and [.simple { name := "y" } .eq (some idParam),
      .subquery (some { name := "z" }) .isIn inner]) }

def countedTwiceSent : Rendered where
  sql := "SELECT COUNT(*) FROM \x22a\x22 WHERE \x22y\x22 = :id AND \x22z\x22 IN " ++
    "(SELECT \x22x\x22 FROM \x22b\x22 WHERE \x22y\x22 = :sq1_id)"
  params := ["id", "sq1_id"]

def everythingFrom (table : String) : Query := { operation := .select, table := { name := table } }

theorem countedTwice_within :
    countedTwice.toSql { maxSubqueryDepth := 1 } = .ok countedTwiceSent ∧
      (everythingFrom "c").toSql { maxSubqueryDepth := 0 } = .ok ⟨"SELECT * FROM \x22c\x22", []⟩ ∧
      ∃ r, (countedTwice.within [everythingFrom "c", everythingFrom "c"]).toSql
        { maxSubqueryDepth := 3 } = .ok r ∧ r.params = ["sq2_id", "sq3_id"] := by
  have rendered : countedTwice.toSql { maxSubqueryDepth := 1 } = .ok countedTwiceSent := rfl
  have alone : (everythingFrom "c").toSql { maxSubqueryDepth := 0 } =
      .ok ⟨"SELECT * FROM \x22c\x22", []⟩ := rfl
  refine ⟨rendered, alone, ?_⟩
  have each : ∀ i o, [everythingFrom "c", everythingFrom "c"][i]? = some o →
      o.operation = .select ∧ o.filter = none ∧ ∃ (own : UInt64) (text : String),
        own.toNat + i ≤ (3 : UInt64).toNat ∧
          o.toSql { maxSubqueryDepth := own } = .ok ⟨text, []⟩ := by
    intro i o member
    obtain ⟨inside, same⟩ := List.getElem?_eq_some_iff.mp member
    have outer : o = everythingFrom "c" := by
      have among := same ▸ List.getElem_mem inside
      simpa using among
    subst outer
    simp only [List.length_cons, List.length_nil] at inside
    exact ⟨rfl, rfl, 0, _, by simp; omega, alone⟩
  obtain ⟨halves, _, inner, -, -, -, -, within⟩ :=
    Query.text_within (.inr rfl) rendered [everythingFrom "c", everythingFrom "c"] rfl each
  have shifted : countedTwiceSent.params.map (deeperName 2) = ["sq2_id", "sq3_id"] := rfl
  exact ⟨_, within, shifted⟩

end TypedSql
