import TypedSql.Config
import TypedSql.Proofs.Document.Gated
import TypedSql.Schema.Document

namespace TypedSql

open Json (Reading)

/-- A kind of value that documents hold, with its layout and the gated names of a value. -/
structure Form where
  {Value : Type}
  decode : Decoder Value
  layout : Layout
  gated : Value → List GatedName

namespace Form

def plain {α : Type} (decode : Decoder α) : Form := ⟨decode, .plain, fun _ => []⟩

def names : List Form := [
  ⟨Param.decode, .parameter, Param.gated⟩,
  ⟨JsonKey.decode, .gated .jsonKey, JsonKey.gated⟩,
  ⟨Alias.decode, .gated .outputAlias, Alias.gated⟩,
  ⟨TableAlias.decode, .gated .tableAlias, TableAlias.gated⟩]

def fields : List Form := [
  ⟨Table.decode, .table, Table.gated⟩,
  ⟨Qualifier.decode, .qualifier, Qualifier.gated⟩,
  ⟨PathSegment.decode, .segment, PathSegment.gated⟩,
  ⟨JsonPath.decode, .path, JsonPath.gated⟩,
  ⟨Field.decode, .field, Field.gated⟩,
  ⟨Operand.decode, .operand, Operand.gated⟩,
  ⟨MathCall.decode, .mathCall, MathCall.gated⟩,
  ⟨Row.decode, .row, Row.gated⟩,
  ⟨ConflictValue.decode, .conflictValue, ConflictValue.gated⟩,
  ⟨ConflictAction.decode, .conflictAction, ConflictAction.gated⟩,
  ⟨OnConflict.decode, .onConflict, OnConflict.gated⟩]

def trees : List Form := [
  ⟨Expr.decode, .tree .expr, Expr.gated⟩,
  ⟨Condition.decode, .tree .condition, Condition.gated⟩,
  ⟨TreeDecoders.decoding TreeDecoders.whenClause, .whenClause, WhenClause.gated⟩,
  ⟨CaseExpr.decode, .caseExpr, CaseExpr.gated⟩,
  ⟨AggregateCall.decode, .aggregateCall, AggregateCall.gated⟩,
  ⟨OrderBy.decode, .orderBy, OrderBy.gated⟩,
  ⟨WindowSpec.decode, .windowSpec, WindowSpec.gated⟩,
  ⟨WindowCall.decode, .windowCall, WindowCall.gated⟩,
  ⟨FieldExpr.decode, .fieldExpr, FieldExpr.gated⟩,
  ⟨Join.decode, .join, Join.gated⟩,
  ⟨AssignValue.decode, .assignValue, AssignValue.gated⟩,
  ⟨Assignment.decode, .assignment, Assignment.gated⟩]

def statements : List Form := [
  ⟨Query.decode, .tree .query, Query.gated⟩,
  ⟨CompoundPart.decode, .compoundPart, CompoundPart.gated⟩,
  ⟨CompoundQuery.decode, .compound, CompoundQuery.gated⟩,
  ⟨Statement.decode, .statement, Statement.gated⟩]

def tags : List Form := [
  plain (Tagged.decode : Decoder Operation),
  plain (Tagged.decode : Decoder Connective),
  plain (Tagged.decode : Decoder Direction),
  plain (Tagged.decode : Decoder NullsPlacement),
  plain (Tagged.decode : Decoder Operator),
  plain (Tagged.decode : Decoder JoinKind),
  plain (Tagged.decode : Decoder SetOperation),
  plain (Tagged.decode : Decoder LockStrength),
  plain (Tagged.decode : Decoder LockWait),
  plain (Tagged.decode : Decoder AggregateKind),
  plain (Tagged.decode : Decoder MathFunction),
  plain (Tagged.decode : Decoder CastType),
  plain (Tagged.decode : Decoder BinaryOp),
  plain (Tagged.decode : Decoder FrameUnits),
  plain (Tagged.decode : Decoder Dialect),
  plain (Tagged.decode : Decoder PlaceholderStyle),
  plain RowLock.decode, plain FrameBound.decode, plain Frame.decode, plain WindowFunction.decode]

def settings : List Form :=
  [plain RenderOptions.decode, plain Config.decode, plain ColumnDef.decode, plain TableDef.decode,
    plain Schema.decode]

def all : List Form := names ++ fields ++ trees ++ statements ++ tags ++ settings

def Sound (form : Form) : Prop := form.decode.Sound form.layout (Among form.gated)

theorem plain_sound {α : Type} (decode : Decoder α) : (plain decode).Sound :=
  fun _ _ _ => .nowhere (fun _ => Position.not_plain) fun _ => nofun

theorem names_sound : ∀ form ∈ names, form.Sound := by
  simp only [names, List.forall_mem_cons]
  exact ⟨Param.decode_sound, JsonKey.decode_sound, Alias.decode_sound, TableAlias.decode_sound,
    nofun⟩

theorem fields_sound : ∀ form ∈ fields, form.Sound := by
  simp only [fields, List.forall_mem_cons]
  exact ⟨Table.decode_sound, Qualifier.decode_sound, PathSegment.decode_sound,
    JsonPath.decode_sound, Field.decode_sound, Operand.decode_sound, MathCall.decode_sound,
    Row.decode_sound, ConflictValue.decode_sound, ConflictAction.decode_sound,
    OnConflict.decode_sound, nofun⟩

theorem trees_sound : ∀ form ∈ trees, form.Sound := by
  simp only [trees, List.forall_mem_cons]
  open TreeDecoders in
  exact ⟨decoding_sound fun _ sound => sound.expr, decoding_sound fun _ sound => sound.condition,
    decoding_sound fun _ => Sound.whenClause, decoding_sound fun _ => Sound.caseExpr,
    decoding_sound fun _ => Sound.aggregateCall, OrderBy.decode_sound,
    decoding_sound fun _ => Sound.windowSpec, decoding_sound fun _ => Sound.windowCall,
    decoding_sound fun _ => Sound.fieldExpr, decoding_sound fun _ => Sound.join,
    decoding_sound fun _ => Sound.assignValue, decoding_sound fun _ => Sound.assignment, nofun⟩

theorem statements_sound : ∀ form ∈ statements, form.Sound := by
  simp only [statements, List.forall_mem_cons]
  exact ⟨Query.decode_sound, CompoundPart.decode_sound, CompoundQuery.decode_sound,
    Statement.decode_sound, nofun⟩

theorem tags_sound : ∀ form ∈ tags, form.Sound := by
  simp only [tags, List.forall_mem_cons]
  simp only [plain_sound, List.not_mem_nil, false_implies, implies_true, and_self]

theorem settings_sound : ∀ form ∈ settings, form.Sound := by
  simp only [settings, List.forall_mem_cons]
  simp only [plain_sound, List.not_mem_nil, false_implies, implies_true, and_self]

theorem all_sound : ∀ form ∈ all, form.Sound := by
  simp only [all, List.forall_mem_append]
  exact ⟨⟨⟨⟨⟨names_sound, fields_sound⟩, trees_sound⟩, statements_sound⟩, tags_sound⟩,
    settings_sound⟩

end Form

section Gates
variable {form : Form}

theorem Form.Sound.read (sound : form.Sound) {s : Source} {value : form.Value}
    (success : form.decode s = .ok value) {n : GatedName} (member : n ∈ form.gated value) :
    Position form.layout s.reading n ∧ n.1.Admits n.2 := by
  obtain ⟨asks, admitted⟩ := sound s value success
  have position : Position form.layout s.reading n := asks _ (fun _ position => position) n member
  exact ⟨position, admitted n position⟩

theorem Form.Sound.refused (sound : form.Sound) {s : Source} {n : GatedName}
    (position : Position form.layout s.reading n) (barred : ¬n.1.Admits n.2) :
    ∃ e, form.decode s = .error e := by
  cases result : form.decode s with
  | error e => exact ⟨e, rfl⟩
  | ok value => exact absurd ((sound s value result).2 n position) barred

theorem Decoder.ok_of_fromText {α : Type} {decode : Decoder α} {text : String} {a : α}
    (success : decode.fromText text = .ok a) :
    decode ⟨(Json.Text.read documentDepth text).value, false⟩ = .ok a := by
  simp only [Decoder.fromText, Except.bind_eq_ok] at success
  obtain ⟨b, read, success⟩ := success
  split at success <;> cases success
  exact read

theorem Decoder.fromText_of_error {α : Type} {decode : Decoder α} {text : String} {e : DecodeError}
    (refused : decode ⟨(Json.Text.read documentDepth text).value, false⟩ = .error e) :
    decode.fromText text = .error e := by
  simp only [Decoder.fromText, refused]
  rfl

/-- Nothing comes in through a document unless it passes its gate: not a name of the value that
    is read, nor one that stands where such a name is taken from. So placeholders are words. -/
theorem documents_gated :
    (∀ form ∈ Form.all, ∀ s : Source,
      (∀ value, form.decode s = .ok value → ∀ n ∈ form.gated value,
        Position form.layout s.reading n ∧ n.1.Admits n.2) ∧
      ∀ n, Position form.layout s.reading n → ¬n.1.Admits n.2 → ∃ e, form.decode s = .error e) ∧
    (∀ form ∈ Form.all, ∀ text : String,
      (∀ value, form.decode.fromText text = .ok value → ∀ n ∈ form.gated value,
        Position form.layout (Json.Text.read documentDepth text).value n ∧ n.1.Admits n.2) ∧
      ∀ n, Position form.layout (Json.Text.read documentDepth text).value n → ¬n.1.Admits n.2 →
        ∃ e, form.decode.fromText text = .error e) ∧
    ∀ (text : String) statement options r, Statement.decode.fromText text = .ok statement →
      statement.toSql options = .ok r → options.placeholders = .named →
      ∃ tokens, options.dialect.lex r.sql.toList = some tokens ∧
        ∀ placeholder ∈ placeholders options.dialect.mark tokens, ∃ (depth : Nat) (word : String),
          placeholder = options.dialect.sigil ++
            ((if depth = 0 then "" else "sq" ++ toString depth ++ "_") ++ word) ∧
          ∃ c rest, word.toList = c :: rest ∧ (c.isAlpha ∨ c = '_') ∧
            ∀ x ∈ rest, x.isAlphanum ∨ x = '_' := by
  refine ⟨fun form known s => ?_, fun form known text => ?_, ?_⟩
  · have sound := Form.all_sound form known
    exact ⟨fun value success n => sound.read success, fun n => sound.refused⟩
  · have sound := Form.all_sound form known
    refine ⟨fun value success n => sound.read (Decoder.ok_of_fromText success), ?_⟩
    intro n position barred
    obtain ⟨e, refused⟩ := sound.refused (s := ⟨_, false⟩) position barred
    exact ⟨e, Decoder.fromText_of_error refused⟩
  · intro text statement options r _ rendered named
    obtain ⟨tokens, read, written⟩ := Statement.sent_named rendered named
    refine ⟨tokens, read, fun placeholder member => ?_⟩
    rw [written, List.mem_map] at member
    obtain ⟨use, -, rfl⟩ := member
    obtain ⟨c, rest, spelled, starts, continues⟩ :=
      word_of_checkWord (gate_of_checkName use.param.admitted).1
    refine ⟨use.depth, use.param.name, rfl, c, rest, spelled, ?_, fun x inside => ?_⟩
    · simpa [isWordStart] using starts
    · simpa [isWordRest] using continues x inside

end Gates

def rowsByIdText : String :=
  "\x7b\x22query\x22:\x7b\x22operation\x22:\x22select\x22,\x22table\x22:\x7b\x22name\x22:\x22a\x22\x7d," ++
    "\x22filter\x22:\x7b\x22type\x22:\x22simple\x22,\x22field\x22:\x7b\x22name\x22:\x22y\x22\x7d," ++
    "\x22op\x22:\x22eq\x22,\x22param\x22:\x22id\x22\x7d\x7d\x7d"

def rowsById : Rendered :=
  ⟨"SELECT * FROM \x22a\x22 WHERE \x22y\x22 = :id", ["id"]⟩

theorem rowsById_gated :
    (∃ statement, Statement.decode.fromText rowsByIdText = .ok statement ∧
      statement.toSql {} = .ok rowsById ∧
      (∀ n ∈ statement.gated, n.1.Admits n.2) ∧
      ∃ tokens, Dialect.postgres.lex rowsById.sql.toList = some tokens ∧
        ∀ placeholder ∈ placeholders ':' tokens, ∃ (depth : Nat) (word : String),
          placeholder = ":" ++ ((if depth = 0 then "" else "sq" ++ toString depth ++ "_") ++ word)) ∧
      ∃ e, Row.decode ⟨.object [(.text "id", .text "1; DROP")], false⟩ = .error e := by
  obtain ⟨sources, texts, placeholders⟩ := documents_gated
  have sent : (Statement.decode.fromText rowsByIdText).toOption.map (·.toSql {}) =
      some (.ok rowsById) := by decide +kernel
  constructor
  · cases read : Statement.decode.fromText rowsByIdText with
    | error e => simp [read, Except.toOption] at sent
    | ok statement =>
      have rendered : statement.toSql {} = .ok rowsById := by simpa [read, Except.toOption] using sent
      obtain ⟨tokens, lexed, words⟩ := placeholders _ _ _ _ read rendered rfl
      refine ⟨statement, rfl, rendered, fun n member => ?_, tokens, lexed, ?_⟩
      · have known : ⟨Statement.decode, .statement, Statement.gated⟩ ∈ Form.all := by
          simp [Form.all, Form.statements]
        exact ((texts _ known _).1 statement read n member).2
      · intro placeholder member
        obtain ⟨depth, word, same, -⟩ := words placeholder member
        exact ⟨depth, word, same⟩
  · have known : ⟨Row.decode, .row, Row.gated⟩ ∈ Form.all := by simp [Form.all, Form.fields]
    have position : Position .row (.object [(.text "id", .text "1; DROP")])
        (.parameter, "1; DROP") := .entry List.mem_cons_self .here
    have barred : ¬Gate.parameter.Admits "1; DROP" := by
      simp only [Gate.Admits]
      decide
    exact (sources _ known ⟨_, false⟩).2 (.parameter, "1; DROP") position barred

end TypedSql
