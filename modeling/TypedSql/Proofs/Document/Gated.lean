import TypedSql.Document.Reader
import TypedSql.Proofs.Document.Members
import TypedSql.Proofs.Placeholders

namespace TypedSql

open Json (Reading)

section Names

theorem Decoder.ok_of_gated {α : Type} {accept : String → Except NameError α} {s : Source} {a : α}
    (success : Decoder.gated accept s = .ok a) :
    ∃ name, s.reading = .text name ∧ accept name = .ok a := by
  simp only [Decoder.gated, Except.bind_eq_ok] at success
  obtain ⟨name, read, accepted⟩ := success
  exact ⟨name, Decoder.Sound.ok_of_string read, Except.mapError_eq_ok.mp accepted⟩

theorem Param.decode_sound : Param.decode.Sound .parameter (Among Param.gated) := by
  refine .gate fun s p success => ?_
  obtain ⟨name, read, accepted⟩ := Decoder.ok_of_gated success
  obtain rfl := Param.name_of_new accepted
  exact ⟨p.name, read, rfl, p.admitted⟩

theorem JsonKey.decode_sound : JsonKey.decode.Sound (.gated .jsonKey) (Among JsonKey.gated) := by
  refine .gate fun s k success => ?_
  obtain ⟨name, read, accepted⟩ := Decoder.ok_of_gated success
  have same : k.name = name := by
    unfold JsonKey.new at accepted
    split at accepted <;> cases accepted
    rfl
  exact ⟨name, read, by rw [JsonKey.gated, same], same ▸ k.admitted⟩

theorem Alias.decode_sound : Alias.decode.Sound (.gated .outputAlias) (Among Alias.gated) := by
  refine .gate fun s a success => ?_
  obtain ⟨name, read, accepted⟩ := Decoder.ok_of_gated success
  obtain ⟨⟨⟩, checked, rfl⟩ := Except.map_eq_ok.mp accepted
  exact ⟨name, read, rfl, checked⟩

theorem TableAlias.decode_sound :
    TableAlias.decode.Sound (.gated .tableAlias) (Among TableAlias.gated) := by
  refine .gate fun s a success => ?_
  simp only [TableAlias.decode, Except.bind_eq_ok, Except.mapError_eq_ok] at success
  obtain ⟨c, read, accepted⟩ := success
  have same : a.letter = c := by
    unfold TableAlias.new at accepted
    split at accepted <;> cases accepted
    rfl
  simp only [Decoder.char, Except.bind_eq_ok] at read
  obtain ⟨name, read, single⟩ := read
  split at single <;> cases single
  rename_i spelled
  have shown : a.display = name := by
    rw [← String.toList_inj, a.toList_display, same, spelled]
  obtain ⟨low, high⟩ := Bool.and_eq_true_iff.mp a.admitted
  have lower : 'a' ≤ a.letter ∧ a.letter ≤ 'z' := ⟨of_decide_eq_true low, of_decide_eq_true high⟩
  exact ⟨name, Decoder.Sound.ok_of_string read, by rw [TableAlias.gated, shown],
    c, spelled, same ▸ lower⟩

end Names

section Fields

theorem Table.decode_sound : Table.decode.Sound .table (Among Table.gated) := by
  refine .object (.of_eq (.seq (.map ?_ (.required (.plain _)))
    (.optional TableAlias.decode_sound)) rfl)
  exact fun P name _ output among => among_elim.mpr among

theorem Qualifier.decode_sound : Qualifier.decode.Sound .qualifier (Among Qualifier.gated) := by
  refine .choice (.carrying (.map (.plain _) ?_)
    (.carrying (.map TableAlias.decode_sound ?_) .nil))
  · exact fun P name _ => nofun
  · exact fun P a among => among

theorem PathSegment.decode_sound :
    PathSegment.decode.Sound .segment (Among PathSegment.gated) := by
  refine .choice (.carrying (.map JsonKey.decode_sound ?_) (.carrying (.map (.plain _) ?_) .nil))
  · exact fun P k among => among
  · exact fun P index _ => nofun

theorem JsonPath.decode_sound : JsonPath.decode.Sound .path (Among JsonPath.gated) := by
  refine .object (.of_eq (.seq (.map ?_ (.required (.list PathSegment.decode_sound)))
    (.defaulted (fun _ => trivial) (.plain _))) rfl)
  exact fun P segments among asText _ => among_flatMap.mpr among

theorem Field.decode_sound : Field.decode.Sound .field (Among Field.gated) := by
  refine .object (.of_eq (.seq (.seq (.map ?_ (.required (.plain _)))
    (.optional Qualifier.decode_sound)) (.optional JsonPath.decode_sound)) rfl)
  exact fun P name _ qualifier qualified path entered =>
    List.forall_mem_append.mpr ⟨among_elim.mpr qualified, among_elim.mpr entered⟩

theorem Operand.decode_sound : Operand.decode.Sound .operand (Among Operand.gated) := by
  refine .choice (.carrying (.map Field.decode_sound ?_)
    (.carrying (.map Param.decode_sound ?_) .nil))
  · exact fun P f among => among
  · exact fun P p among => among

theorem Operand.decodePair_sound :
    Operand.decodePair.Sound (.list .operand)
      fun P pair => Among Operand.gated P pair.1 ∧ Among Operand.gated P pair.2 := by
  rintro ⟨reading, held⟩ ⟨left, right⟩ success
  unfold Operand.decodePair at success
  split at success
  · rename_i first more given
    obtain rfl : reading = .list (first :: more) := given
    simp only [Except.bind_eq_ok] at success
    obtain ⟨l, read, success⟩ := success
    split at success
    · cases success
    · rename_i second rest
      simp only [Except.bind_eq_ok] at success
      obtain ⟨r, read', success⟩ := success
      split at success <;> cases success
      rename_i alone
      obtain rfl : rest = [] := by simpa using alone
      have items : Decoder.list Operand.decode ⟨.list [first, second], held⟩ = .ok [left, right] := by
        simp [Decoder.list, read, read']
        rfl
      have listed := Decoder.Sound.list Operand.decode_sound _ _ items
      exact ⟨fun P holds => by simpa using listed.1 P holds, listed.2⟩
  · cases success

theorem MathCall.decode_sound : MathCall.decode.Sound .mathCall (Among MathCall.gated) := by
  refine .object (.of_eq (.seq (.seq (.map ?_ (.required (.plain _)))
    (.required Field.decode_sound)) (.optional Param.decode_sound)) rfl)
  exact fun P function _ f among argument given =>
    List.forall_mem_append.mpr ⟨among, among_elim.mpr given⟩

theorem Row.decode_sound : Row.decode.Sound .row (Among Row.gated) := by
  intro s row success
  have vouched := Decoder.Sound.nameMap Param.decode_sound s row success
  exact ⟨fun P holds => among_flatMap.mpr (vouched.1 P holds), vouched.2⟩

theorem ConflictValue.decode_sound :
    ConflictValue.decode.Sound .conflictValue (Among ConflictValue.gated) := by
  refine .choice (.carrying (.map Param.decode_sound ?_) (.plain (fun _ => nofun) rfl .nil))
  exact fun P p among => among

theorem ConflictAction.decode_sound :
    ConflictAction.decode.Sound .conflictAction (Among ConflictAction.gated) := by
  refine .choice (.plain (fun _ => nofun) (by decide)
    (.carrying (.map (.nameMap ConflictValue.decode_sound) ?_) .nil))
  exact fun P updates among => among_flatMap.mpr among

theorem OnConflict.decode_sound : OnConflict.decode.Sound .onConflict (Among OnConflict.gated) := by
  refine .object (.of_eq (.seq (.map ?_ (.defaulted (fun _ => nofun)
    (.list Field.decode_sound))) (.required ConflictAction.decode_sound)) rfl)
  exact fun P target among action among' =>
    List.forall_mem_append.mpr ⟨among_flatMap.mpr among, among'⟩

end Fields

structure TreeDecoders.Sound (d : TreeDecoders) : Prop where
  expr : d.expr.Sound (.tree .expr) (Among Expr.gated)
  condition : d.condition.Sound (.tree .condition) (Among Condition.gated)
  query : d.query.Sound (.tree .query) (Among Query.gated)

namespace TreeDecoders
variable {d : TreeDecoders} (sound : d.Sound)
include sound

theorem Sound.whenClause : d.whenClause.Sound .whenClause (Among WhenClause.gated) := by
  refine .object (.of_eq (.seq (.map ?_ (.required sound.condition))
    (.required Param.decode_sound)) rfl)
  exact fun P x among result among' => List.forall_mem_append.mpr ⟨among, among'⟩

theorem Sound.caseExpr : d.caseExpr.Sound .caseExpr (Among CaseExpr.gated) := by
  refine .object (.of_eq (.seq (.map ?_ (.required (.list sound.whenClause)))
    (.optional Param.decode_sound)) rfl)
  intro P whens among otherwise given
  have branches : ∀ n ∈ whensGated whens, P n := by
    rw [whensGated_eq]
    exact among_flatMap.mpr among
  exact List.forall_mem_append.mpr ⟨branches, among_elim.mpr given⟩

theorem Sound.aggregateCall :
    d.aggregateCall.Sound .aggregateCall (Among AggregateCall.gated) := by
  refine .object (.of_eq (.seq (.seq (.map ?_ (.required (.plain _)))
    (.optional Field.decode_sound)) (.optional sound.condition)) rfl)
  intro P kind _ f among filter given
  have filters : ∀ n ∈ optionalGated filter, P n := by
    rw [optionalGated_eq]
    exact among_elim.mpr given
  exact List.forall_mem_append.mpr ⟨among_elim.mpr among, filters⟩

theorem Sound.orderBy : d.orderBy.Sound .orderBy (Among OrderBy.gated) := by
  refine .object (.of_eq (.seq (.seq (.map ?_ (.required sound.expr))
    (.defaulted (fun _ => trivial) (.plain _))) (.optional (.plain _))) rfl)
  exact fun P e among direction _ nulls _ => among

theorem Sound.windowSpec : d.windowSpec.Sound .windowSpec (Among WindowSpec.gated) := by
  refine .object (.of_eq (.seq (.seq (.map ?_ (.defaulted (fun _ => nofun)
    (.list Field.decode_sound))) (.defaulted (fun _ => nofun) (.list sound.orderBy)))
    (.optional (.plain _))) rfl)
  intro P partitionBy among orderBy order frame _
  have ordered : ∀ n ∈ orderGated orderBy, P n := by
    rw [orderGated_eq]
    exact among_flatMap.mpr order
  exact List.forall_mem_append.mpr ⟨among_flatMap.mpr among, ordered⟩

theorem Sound.windowCall : d.windowCall.Sound .windowCall (Among WindowCall.gated) := by
  refine .object (.of_eq (.seq (.seq (.seq (.seq (.seq (.map ?_ (.required (.plain _)))
    (.optional Field.decode_sound)) (.optional Param.decode_sound))
    (.optional Param.decode_sound)) (.optional Param.decode_sound))
    (.defaulted (fun _ => nofun) sound.windowSpec)) rfl)
  intro P function _ f field bucket bucketed offset shifted fallback given window among
  simp only [Among, WindowCall.gated, List.forall_mem_append, among_elim]
  exact ⟨⟨⟨⟨field, bucketed⟩, shifted⟩, given⟩, among⟩

theorem Sound.fieldExpr : d.fieldExpr.Sound .fieldExpr (Among FieldExpr.gated) := by
  refine .object (.of_eq (.seq (.map ?_ (.required sound.expr))
    (.optional Alias.decode_sound)) rfl)
  exact fun P e among output given =>
    List.forall_mem_append.mpr ⟨among, among_elim.mpr given⟩

theorem Sound.join : d.join.Sound .join (Among Join.gated) := by
  refine .object (.of_eq (.seq (.seq (.map ?_ (.required (.plain _)))
    (.required Table.decode_sound)) (.optional sound.condition)) rfl)
  intro P kind _ table among on given
  have conditions : ∀ n ∈ optionalGated on, P n := by
    rw [optionalGated_eq]
    exact among_elim.mpr given
  exact List.forall_mem_append.mpr ⟨among, conditions⟩

theorem Sound.assignValue : d.assignValue.Sound .assignValue (Among AssignValue.gated) := by
  refine .choice (.carrying (.map Param.decode_sound ?_) (.carrying (.map sound.expr ?_) .nil))
  · exact fun P p among => among
  · exact fun P e among => among

theorem Sound.assignment : d.assignment.Sound .assignment (Among Assignment.gated) := by
  refine .object (.of_eq (.seq (.map ?_ (.required Field.decode_sound))
    (.required sound.assignValue)) rfl)
  exact fun P target among value among' => List.forall_mem_append.mpr ⟨among, among'⟩

omit sound in
theorem castExpr_sound : castExpr.Sound .cast (Among Expr.gated) := by
  refine .object (.of_eq (.seq (.map ?_ (.required Field.decode_sound))
    (.required (.plain _))) rfl)
  exact fun P f among type _ => among

omit sound in
theorem binaryExpr_sound : binaryExpr.Sound .binary (Among Expr.gated) := by
  refine .object (.of_eq (.seq (.seq (.map ?_ (.required Field.decode_sound))
    (.required (.plain _))) (.required Param.decode_sound)) rfl)
  exact fun P f among op _ p among' => List.forall_mem_append.mpr ⟨among, among'⟩

theorem Sound.exprStep : d.exprStep.Sound .expr (Among Expr.gated) := by
  refine .choice (.carrying (.map Field.decode_sound ?_) <|
    .carrying (.map sound.aggregateCall ?_) <| .carrying (.map sound.caseExpr ?_) <|
    .carrying (.map (.list Operand.decode_sound) ?_) <|
    .carrying (.map Operand.decodePair_sound ?_) <| .carrying (.map MathCall.decode_sound ?_) <|
    .carrying castExpr_sound <| .carrying (.map sound.windowCall ?_) <|
    .carrying binaryExpr_sound .nil)
  · exact fun P f among => among
  · exact fun P call among => among
  · exact fun P cases among => among
  · exact fun P operands among => among_flatMap.mpr among
  · exact fun P pair among => List.forall_mem_append.mpr among
  · exact fun P call among => among
  · exact fun P call among => among

def FormSound {α : Type} (Q : (GatedName → Prop) → α → Prop) (form : String × Members α)
    (layout : String × Layout) : Prop :=
  form.1 = layout.1 ∧ ∃ layouts, layout.2 = .object layouts ∧ form.2.Sound layouts Q

theorem Sound.conditionTypes :
    List.Forall₂ (FormSound (Among Condition.gated)) d.conditionTypes Layout.conditionTypes := by
  refine .cons ⟨rfl, _, rfl, .of_eq (.seq (.seq (.map ?simple (.required Field.decode_sound))
      (.required (.plain _))) (.optional Param.decode_sound)) rfl⟩ <|
    .cons ⟨rfl, _, rfl, .of_eq (.seq (.map ?group (.required (.plain _)))
      (.required (.list sound.condition))) rfl⟩ <|
    .cons ⟨rfl, _, rfl, .of_eq (.seq (.seq (.map ?comparison (.required Field.decode_sound))
      (.required (.plain _))) (.required Field.decode_sound)) rfl⟩ <|
    .cons ⟨rfl, _, rfl, .of_eq (.seq (.seq (.map ?subquery (.optional Field.decode_sound))
      (.required (.plain _))) (.required sound.query)) rfl⟩ <|
    .cons ⟨rfl, _, rfl, .of_eq (.seq (.seq (.seq (.map ?between (.required Field.decode_sound))
      (.required Param.decode_sound)) (.required Param.decode_sound))
      (.defaulted (fun _ => trivial) (.plain _))) rfl⟩ <|
    .cons ⟨rfl, _, rfl, .of_eq (.seq (.seq (.seq (.map ?aggregate (.required (.plain _)))
      (.optional Field.decode_sound)) (.required (.plain _))) (.required Param.decode_sound)) rfl⟩ <|
    .cons ⟨rfl, _, rfl, .of_eq (.seq (.seq (.map ?expression (.required sound.expr))
      (.required (.plain _))) (.required Param.decode_sound)) rfl⟩ .nil
  case simple =>
    exact fun P f among op _ p given => List.forall_mem_append.mpr ⟨among, among_elim.mpr given⟩
  case group =>
    intro P op _ items among
    show ∀ n ∈ conditionsGated items, P n
    rw [conditionsGated_eq]
    exact among_flatMap.mpr among
  case comparison =>
    exact fun P left among op _ right among' => List.forall_mem_append.mpr ⟨among, among'⟩
  case subquery =>
    exact fun P f given op _ q among => List.forall_mem_append.mpr ⟨among_elim.mpr given, among⟩
  case between =>
    exact fun P f among low lower high upper negated _ =>
      List.forall_mem_append.mpr ⟨List.forall_mem_append.mpr ⟨among, lower⟩, upper⟩
  case aggregate =>
    exact fun P kind _ f given op _ p among =>
      List.forall_mem_append.mpr ⟨among_elim.mpr given, among⟩
  case expression =>
    exact fun P e among op _ p among' => List.forall_mem_append.mpr ⟨among, among'⟩

omit sound in
theorem lookup_of_forms {α : Type} {Q : (GatedName → Prop) → α → Prop}
    {forms : List (String × Members α)} {layouts : List (String × Layout)}
    (alike : List.Forall₂ (FormSound Q) forms layouts) {name : String} {m : Members α}
    (known : forms.lookup name = some m) :
    ∃ members, layouts.lookup name = some (.object members) ∧ m.Sound members Q := by
  induction alike with
  | nil => cases known
  | @cons form layout forms layouts same _ ih =>
    obtain ⟨key, m'⟩ := form
    obtain ⟨key', layout⟩ := layout
    obtain ⟨rfl, members, rfl, sound⟩ := same
    rw [List.lookup_cons] at known ⊢
    split at known
    · rename_i found
      cases known
      simp only [found]
      exact ⟨members, rfl, sound⟩
    · rename_i other
      simp only [other]
      exact ih known

omit sound in
theorem getElem?_of_forms {α : Type} {Q : (GatedName → Prop) → α → Prop}
    {forms : List (String × Members α)} {layouts : List (String × Layout)}
    (alike : List.Forall₂ (FormSound Q) forms layouts) {i : Nat} {form : String × Members α}
    (known : forms[i]? = some form) :
    ∃ name members, layouts[i]? = some (name, .object members) ∧ form.2.Sound members Q := by
  induction alike generalizing i with
  | nil => cases known
  | @cons first layout forms layouts same _ ih =>
    cases i with
    | zero =>
      cases known
      obtain ⟨key', layout⟩ := layout
      obtain ⟨-, members, rfl, sound⟩ := same
      exact ⟨key', members, rfl, sound⟩
    | succ i => exact ih known

theorem Sound.conditionType {s : Source} {m : Members Condition}
    (success : d.conditionType s = .ok m) :
    ∃ members, Layout.form? Layout.conditionTypes s.reading = some (.object members) ∧
      m.Sound members (Among Condition.gated) := by
  unfold TreeDecoders.conditionType at success
  split at success
  · rename_i name given
    rw [given]
    cases found : d.conditionTypes.lookup name with
    | none => simp [found] at success
    | some m' =>
      obtain rfl : m' = m := by simpa [found] using success
      exact lookup_of_forms sound.conditionTypes found
  · rename_i n given _
    rw [given]
    cases found : d.conditionTypes[n]? with
    | none => simp [found] at success
    | some form =>
      obtain rfl : form.2 = m := by simpa [found] using success
      obtain ⟨name, members, listed, sound⟩ := getElem?_of_forms sound.conditionTypes found
      exact ⟨members, by simp [Layout.form?, listed], sound⟩
  · cases success

theorem Sound.conditionStep : d.conditionStep.Sound .condition (Among Condition.gated) := by
  rintro ⟨reading, held⟩ x success
  unfold TreeDecoders.conditionStep at success
  split at success
  · rename_i entries held given
    cases given
    simp only [Except.bind_eq_ok] at success
    obtain ⟨m, told, success⟩ := success
    have read := Members.read_of_passingOthers (Except.mapError_eq_ok.mp told)
    rcases Members.ok_of_lookup read with ⟨-, absent⟩ | ⟨type, typed, ⟨key, member, named⟩, only⟩
    · cases absent
    obtain ⟨members, form, sound⟩ := sound.conditionType typed
    obtain ⟨entry, inside, same⟩ := List.mem_map.mp member
    cases same
    have vouched := Decoder.Sound.object sound _ _ success
    refine vouched.congr fun n => ⟨fun inner => .typed inside named form inner, fun position => ?_⟩
    cases position with
    | @typed _ _ key' type' layout _ member' named' form' inner =>
      have again := only (key', ⟨type', held⟩) (List.mem_map.mpr ⟨_, member', rfl⟩) named'
      cases again
      cases form.symm.trans form'
      exact inner
  · rename_i type items held given
    cases given
    simp only [Except.bind_eq_ok] at success
    obtain ⟨m, typed, success⟩ := success
    obtain ⟨members, form, sound⟩ := sound.conditionType typed
    split at success
    · have vouched := Decoder.Sound.object sound _ _ success
      refine vouched.congr fun n => ⟨fun inner => .typedValues form inner, fun position => ?_⟩
      cases position with
      | typedValues form' inner =>
        cases form.symm.trans form'
        exact inner
    · cases success
  · cases success

theorem Sound.queryStep : d.queryStep.Sound .query (Among Query.gated) := by
  refine .object (.of_eq (.seq (.seq (.seq (.seq (.seq (.seq (.seq (.seq (.seq (.seq (.seq (.seq
    (.seq (.seq (.seq (.seq (.map ?_
    (.required (.plain _))) (.required Table.decode_sound))
    (.defaulted (fun _ => trivial) (.plain _)))
    (.defaulted (fun _ => nofun) (.list Field.decode_sound)))
    (.defaulted (fun _ => nofun) (.list sound.fieldExpr)))
    (.defaulted (fun _ => nofun) (.list sound.join)))
    (.optional sound.condition))
    (.defaulted (fun _ => nofun) (.list Field.decode_sound)))
    (.optional sound.condition))
    (.defaulted (fun _ => nofun) (.list sound.orderBy)))
    (.optional (.plain _))) (.optional (.plain _))) (.optional (.plain _)))
    (.defaulted (fun _ => nofun) (.list Row.decode_sound)))
    (.defaulted (fun _ => nofun) (.list sound.assignment)))
    (.defaulted (fun _ => nofun) (.list Field.decode_sound)))
    (.optional OnConflict.decode_sound)) rfl)
  intro P operation _ table named distinct _ distinctOn on fields projected joins joined filter
    filters groupBy grouped having havings orderBy ordered limit _ offset _ lock _ rows inserted
    assignments assigned returning returned onConflict conflicts
  simp only [Among, Query.gated, List.forall_mem_append, among_elim, among_flatMap,
    projectedGated_eq, joinsGated_eq, optionalGated_eq, orderGated_eq, assignmentsGated_eq]
  exact ⟨⟨⟨⟨⟨⟨⟨⟨⟨⟨⟨named, on⟩, projected⟩, joined⟩, filters⟩, grouped⟩, havings⟩, ordered⟩, inserted⟩,
    assigned⟩, returned⟩, conflicts⟩

omit sound in
/-- However deep a document is, its parts are read as their layouts say. -/
theorem ofDepth_sound (n : Nat) : (ofDepth n).Sound := by
  induction n with
  | zero => exact ⟨nofun, nofun, nofun⟩
  | succ n ih =>
    exact ⟨.tree ih.exprStep, .tree ih.conditionStep, .tree ih.queryStep⟩

omit sound in
theorem decoding_sound {α : Type} {layout : Layout} {Q : (GatedName → Prop) → α → Prop}
    {decoder : TreeDecoders → Decoder α}
    (each : ∀ d : TreeDecoders, d.Sound → (decoder d).Sound layout Q) :
    (decoding decoder).Sound layout Q :=
  fun s a success => each _ (ofDepth_sound _) s a success

end TreeDecoders

section Documents
open TreeDecoders

theorem Query.decode_sound : Query.decode.Sound (.tree .query) (Among Query.gated) :=
  decoding_sound fun _ sound => sound.query

theorem OrderBy.decode_sound : OrderBy.decode.Sound .orderBy (Among OrderBy.gated) :=
  decoding_sound fun _ sound => sound.orderBy

theorem CompoundPart.decode_sound :
    CompoundPart.decode.Sound .compoundPart (Among CompoundPart.gated) := by
  refine .object (.of_eq (.seq (.map ?_ (.required (.plain _)))
    (.required Query.decode_sound)) rfl)
  exact fun P op _ q among => among

theorem CompoundQuery.decode_sound :
    CompoundQuery.decode.Sound .compound (Among CompoundQuery.gated) := by
  refine .object (.of_eq (.seq (.seq (.seq (.seq (.map ?_ (.required Query.decode_sound))
    (.defaulted (fun _ => nofun) (.list CompoundPart.decode_sound)))
    (.defaulted (fun _ => nofun) (.list OrderBy.decode_sound)))
    (.optional (.plain _))) (.optional (.plain _))) rfl)
  intro P base among parts among' orderBy ordered limit _ offset _
  simp only [Among, CompoundQuery.gated, List.forall_mem_append, among_flatMap]
  exact ⟨⟨among, among'⟩, ordered⟩

theorem Statement.decode_sound : Statement.decode.Sound .statement (Among Statement.gated) := by
  refine .choice (.carrying (.map Query.decode_sound ?_)
    (.carrying (.map CompoundQuery.decode_sound ?_) .nil))
  · exact fun P q among => among
  · exact fun P q among => among

end Documents
end TypedSql
