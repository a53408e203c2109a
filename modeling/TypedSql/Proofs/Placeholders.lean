import TypedSql.Document.Reader
import TypedSql.Proofs.Render.Sent
import TypedSql.Proofs.Sql.ParamSet

namespace TypedSql

section Sent
variable {statement : Statement} {options : RenderOptions} {r : Rendered}

theorem Statement.names_paramSet (statement : Statement) :
    statement.paramSet.names = (statement.uses.map Hole.name).eraseDups :=
  ParamSet.names_ofList _

theorem Statement.sent_named (rendered : statement.toSql options = .ok r)
    (named : options.placeholders = .named) :
    ∃ tokens, options.dialect.lex r.sql.toList = some tokens ∧
      placeholders options.dialect.mark tokens =
        statement.uses.map fun use => options.dialect.namedPlaceholder use.name := by
  obtain ⟨s, made, read, -⟩ := Statement.sent_tokens rendered
  obtain ⟨e, -, walked⟩ := made.walk
  have spelled : statement.spelling options =
      fun use => options.dialect.namedPlaceholder use.name := by
    funext use
    simp only [Statement.spelling, named, spellHole_named]
  refine ⟨_, read, ?_⟩
  rw [spelled, placeholders_of_walk (markedBy_named _) walked, made.holes_eq rfl]

/-- No parameter is lost, invented or moved: each use has its placeholder, in the order of the
    clauses, and the parameters are listed in the order of their first use. -/
theorem Statement.params_in_order (rendered : statement.toSql options = .ok r) :
    (∃ tokens, options.dialect.lex r.sql.toList = some tokens ∧
      (options.placeholders = .named →
        placeholders options.dialect.mark tokens = statement.uses.map fun use =>
          options.dialect.sigil ++
            ((if use.depth = 0 then "" else "sq" ++ toString use.depth ++ "_") ++
              use.param.name))) ∧
      r.params = (statement.uses.map Hole.name).eraseDups ∧ r.params.Nodup ∧
      ∀ other r', statement.toSql other = .ok r' → r'.params = r.params := by
  obtain ⟨s, -, read, -⟩ := Statement.sent_tokens rendered
  have listed := Statement.sent_params rendered
  refine ⟨⟨_, read, fun named => ?_⟩, ?_, ?_, fun other r' rendered' => ?_⟩
  · obtain ⟨tokens, again, written⟩ := Statement.sent_named rendered named
    obtain rfl : _ = tokens := Option.some.inj (read.symm.trans again)
    exact written
  · rw [listed, Statement.names_paramSet]
  · rw [listed]
    exact statement.paramSet.distinct
  · rw [Statement.sent_params rendered', listed]

end Sent

def idParam : Param := ⟨"id", by decide⟩

def readingTwice : Statement :=
  let inner : Query :=
    { operation := .select, table := { name := "b" }, fields := [⟨.field { name := "x" }, none⟩]
      filter := some (.simple { name := "y" } .eq (some idParam)) }
  .query
    { operation := .select, table := { name := "a" }
      filter := some (.group .and [.simple { name := "y" } .eq (some idParam),
        .subquery (some { name := "z" }) .isIn inner]) }

def readingTwiceSent : Rendered where
  sql := "SELECT * FROM \x22a\x22 WHERE \x22y\x22 = :id AND \x22z\x22 IN " ++
    "(SELECT \x22x\x22 FROM \x22b\x22 WHERE \x22y\x22 = :sq1_id)"
  params := ["id", "sq1_id"]

theorem readingTwice_params :
    readingTwice.toSql {} = .ok readingTwiceSent ∧
      readingTwiceSent.params = (readingTwice.uses.map Hole.name).eraseDups := by
  have rendered : readingTwice.toSql {} = .ok readingTwiceSent := rfl
  exact ⟨rendered, (Statement.params_in_order rendered).2.1⟩

/-- Which parameter a named placeholder stands for, by its place in the list. -/
def Rendered.place? (r : Rendered) (d : Dialect) (placeholder : String) : Option Nat :=
  r.params.findIdx? fun name => d.namedPlaceholder name == placeholder

theorem Dialect.namedPlaceholder_inj {d : Dialect} {a b : String} :
    d.namedPlaceholder a = d.namedPlaceholder b ↔ a = b := by
  constructor
  · intro same
    have listed := congrArg String.toList same
    simp only [namedPlaceholder, String.toList_append, List.append_cancel_left_eq] at listed
    exact String.toList_inj.mp listed
  · exact fun same => same ▸ rfl

theorem Rendered.place?_namedPlaceholder {r : Rendered} (d : Dialect) {name : String}
    (listed : name ∈ r.params) :
    r.place? d (d.namedPlaceholder name) = some (r.params.idxOf name) := by
  have same : (fun other => d.namedPlaceholder other == d.namedPlaceholder name) =
      fun other => other == name := by
    funext other
    rw [Bool.eq_iff_iff, beq_iff_eq, beq_iff_eq, Dialect.namedPlaceholder_inj]
  rw [place?, same]
  exact List.findIdx?_eq_some_of_exists ⟨name, listed, by simp⟩

theorem Hole.eq_iff {a b : Hole} : a = b ↔ a.depth = b.depth ∧ a.param.name = b.param.name := by
  obtain ⟨depth, name, admitted⟩ := a
  obtain ⟨depth', name', admitted'⟩ := b
  simp

/-- Two uses share their placeholder, and with it their parameter in the list, exactly if they
    have the same name on the same level. -/
theorem Statement.shared_iff {statement : Statement} {options : RenderOptions} {r : Rendered}
    (rendered : statement.toSql options = .ok r) {a b : Hole} (first : a ∈ statement.uses)
    (second : b ∈ statement.uses) :
    (options.dialect.namedPlaceholder a.name = options.dialect.namedPlaceholder b.name ↔
        a.depth = b.depth ∧ a.param.name = b.param.name) ∧
      (r.params.idxOf a.name = r.params.idxOf b.name ↔
        a.depth = b.depth ∧ a.param.name = b.param.name) ∧
      a.name ∈ r.params ∧ b.name ∈ r.params := by
  have listed := Statement.sent_params rendered
  have among {use : Hole} (member : use ∈ statement.uses) : use.name ∈ r.params := by
    rw [listed, Statement.names_paramSet, List.mem_eraseDups]
    exact List.mem_map_of_mem member
  have named : a.name = b.name ↔ a.depth = b.depth ∧ a.param.name = b.param.name :=
    ⟨fun same => Hole.eq_iff.mp (Hole.name_inj same), fun same => by rw [Hole.eq_iff.mpr same]⟩
  refine ⟨Dialect.namedPlaceholder_inj.trans named, ?_, among first, among second⟩
  exact (List.idxOf_inj (among first)).trans named

theorem Param.name_of_new {name : String} {p : Param} (made : Param.new name = .ok p) :
    p.name = name := by
  unfold Param.new at made
  split at made
  · cases made
    rfl
  · cases made

theorem Param.name_of_decode {source : Source} {p : Param} (read : Param.decode source = .ok p) :
    Decoder.string source = .ok p.name := by
  simp only [Param.decode, Decoder.gated, Except.bind_eq_ok] at read
  obtain ⟨name, found, made⟩ := read
  cases gated : Param.new name with
  | error e => simp [gated, Except.mapError] at made
  | ok q =>
    obtain rfl : q = p := by simpa [gated, Except.mapError] using made
    rw [found, Param.name_of_new gated]

/-- Levels do not capture each other's parameters: two placeholders are the same text, and stand
    for the same parameter in the list, exactly for one name on one level. Names that are made for
    subqueries cannot be written by a caller, neither directly nor in a document. -/
theorem Statement.levels_apart :
    (∀ (statement : Statement) options r, statement.toSql options = .ok r →
      options.placeholders = .named → ∃ tokens, options.dialect.lex r.sql.toList = some tokens ∧
        ∀ (i j : Nat) (a b : Hole), statement.uses[i]? = some a → statement.uses[j]? = some b →
          ∃ x y m n, (placeholders options.dialect.mark tokens)[i]? = some x ∧
            (placeholders options.dialect.mark tokens)[j]? = some y ∧
            r.place? options.dialect x = some m ∧ r.place? options.dialect y = some n ∧
            r.params[m]? = some a.name ∧ r.params[n]? = some b.name ∧
            (x = y ↔ a.depth = b.depth ∧ a.param.name = b.param.name) ∧
            (m = n ↔ a.depth = b.depth ∧ a.param.name = b.param.name)) ∧
      ∀ depth, 1 ≤ depth → ∀ chosen : String,
        (∀ name p, Param.new name = .ok p →
          p.name = name ∧ name ≠ "sq" ++ toString depth ++ "_" ++ chosen) ∧
        ∀ source p, Param.decode source = .ok p →
          Decoder.string source = .ok p.name ∧
            p.name ≠ "sq" ++ toString depth ++ "_" ++ chosen := by
  constructor
  · intro statement options r rendered named
    obtain ⟨tokens, read, written⟩ := Statement.sent_named rendered named
    refine ⟨tokens, read, fun i j a b first second => ?_⟩
    obtain ⟨texts, entries, listed, listed'⟩ := Statement.shared_iff rendered
      (List.mem_of_getElem? first) (List.mem_of_getElem? second)
    refine ⟨_, _, _, _, ?_, ?_, Rendered.place?_namedPlaceholder _ listed,
      Rendered.place?_namedPlaceholder _ listed', ?_, ?_, texts, entries⟩
    · rw [written, List.getElem?_map, first, Option.map_some]
    · rw [written, List.getElem?_map, second, Option.map_some]
    · exact List.getElem?_idxOf listed
    · exact List.getElem?_idxOf listed'
  · intro depth inside chosen
    have made : depthPrefix depth = "sq" ++ toString depth ++ "_" := if_neg (by omega)
    have apart (p : Param) : p.name ≠ "sq" ++ toString depth ++ "_" ++ chosen :=
      made ▸ p.name_ne (by omega) chosen
    exact ⟨fun name p accepted => ⟨Param.name_of_new accepted, Param.name_of_new accepted ▸ apart p⟩,
      fun source p accepted => ⟨Param.name_of_decode accepted, apart p⟩⟩

theorem readingTwice_apart :
    readingTwice.toSql {} = .ok readingTwiceSent ∧
      ∃ tokens, Dialect.postgres.lex readingTwiceSent.sql.toList = some tokens ∧
        ∃ x y, (placeholders ':' tokens)[0]? = some x ∧ (placeholders ':' tokens)[1]? = some y ∧
          x ≠ y := by
  have rendered : readingTwice.toSql {} = .ok readingTwiceSent := rfl
  obtain ⟨tokens, read, apart⟩ :=
    Statement.levels_apart.1 readingTwice {} readingTwiceSent rendered rfl
  have uses : readingTwice.uses = [⟨0, idParam⟩, ⟨1, idParam⟩] := by decide +kernel
  rw [uses] at apart
  obtain ⟨x, y, _, _, outer, inner, -, -, -, -, same, -⟩ := apart 0 1 _ _ rfl rfl
  refine ⟨rendered, tokens, read, x, y, outer, inner, fun equal => ?_⟩
  exact absurd (same.mp equal).1 (by decide)

end TypedSql
