import TypedSql.Proofs.Render.Passage
import TypedSql.Proofs.Sql.Choice

namespace TypedSql

section Leaves
variable {d : Dialect} {spell : Hole → String} {s : Sql}

theorem Sql.Weighs.placeholder (marked : SpelledMarked spell) (c : Context) (param : Param) :
    (c.placeholder param).Weighs spell {} {} := by
  obtain ⟨x, lexed, bare⟩ := Sql.lexemes_hole marked ⟨c.depth, param⟩
  refine .of_bare ?_
  rw [Context.placeholder, lexed]
  exact Bare.single bare

theorem Field.weighed {f : Field} (made : f.render d = .ok s) : s.Weighs spell {} {} := by
  obtain ⟨steps, walked, rfl⟩ := Field.render_ok_iff.mp made
  have stepped : Steps spell steps := Steps.pathSteps walked
  exact .append stepped.2 (.of_bare f.bare_column) (.of_bare stepped.1)

end Leaves

section Sides
variable {d : Dialect} {spell : Hole → String} {s left right : Sql}

theorem Sql.Weighs.compareSides (inert : SpelledInert spell) (op : Operator)
    (first : left.Weighs spell {} {}) (phrase : Phrase left) (second : right.Weighs spell {} {})
    (argument : Phrase right) : (compareSides d left op right).Weighs spell {} {} := by
  cases op
  case isIn =>
    cases d
    case postgres =>
      exact .linkedClosed (p := 0) inert first (by decide) (by decide) argument (by decide)
    all_goals exact .linkedClosed (p := 1) inert first (by decide) (by decide) argument (by decide)
  case notIn =>
    cases d
    case postgres =>
      exact .linkedClosed (p := 0) inert first (by decide) (by decide) argument (by decide)
    case mySql =>
      exact .paired (p := 2) inert (by decide) phrase (by decide) (by decide) argument
        (by decide)
    all_goals exact .linkedClosed (p := 1) inert first (by decide) (by decide) argument (by decide)
  case iLike | notILike =>
    cases d
    case postgres => exact first.linked (by decide) (by decide) second
    all_goals
      exact .paired (p := 0) inert (by decide) phrase (by decide) (by decide) argument
        (by decide)
  all_goals exact first.linked (by decide) (by decide) second

theorem Sql.Weighs.call (inert : SpelledInert spell) {name : String}
    (leading : weighsIn (name ++ "(").toList {} ⟨1, 0⟩ = true) {argument : Option Sql}
    (first : Phrase left) (second : ∀ s ∈ argument, Phrase s) :
    (Dialect.call name left argument).Weighs spell {} {} := by
  cases argument with
  | none => exact .enclosed inert leading first (by decide)
  | some s =>
    exact .paired (p := 0) inert leading first (by decide) (by decide) (second s rfl) (by decide)

theorem Sql.Weighs.mathCall (inert : SpelledInert spell) (function : MathFunction)
    {argument : Option Sql} (first : Phrase left) (second : ∀ s ∈ argument, Phrase s) :
    (d.mathCall function left argument).Weighs spell {} {} := by
  unfold Dialect.mathCall
  split
  · exact .call inert (by decide) first (by simp)
  · exact .call inert (by decide) first (by simpa using Phrase.text (by decide))
  · exact .call inert (by cases function <;> decide) first second

theorem weighsOut_castType {type : CastType} {name : String} (typed : d.castType type = .ok name) :
    weighsOut (" AS " ++ name ++ ")").toList ⟨1, 0⟩ {} = true :=
  Dialect.castType_all (fun name => weighsOut (" AS " ++ name ++ ")").toList ⟨1, 0⟩ {})
    (by intro d type; cases d <;> cases type <;> decide) typed

theorem Sql.Weighs.binary {op : BinaryOp} (inert : SpelledInert spell)
    (made : d.binary left op right = .ok s) (first : left.Weighs spell {} {}) (phrase : Phrase left)
    (second : right.Weighs spell {} {}) (argument : Phrase right) : s.Weighs spell {} {} := by
  rcases Dialect.binary_ok made with rfl | rfl | rfl
  · exact .paired (p := 0) inert (by decide) phrase (by decide) (by decide) argument (by decide)
  · exact first.linked (by decide) (by decide) second
  · exact first.linked (by cases op <;> decide) (by cases op <;> decide) second

theorem WindowCall.Calls.weighed {c : Context} {w : WindowCall} {call : Sql}
    (inert : SpelledInert spell) (calls : w.Calls c call) : call.Weighs spell {} {} := by
  cases calls with
  | ranking checked ranks bare =>
    rcases ranks with ranks | ranks | ranks <;> rw [ranks] <;> exact .text (by decide)
  | ntile checked tiles bare given styled =>
    exact .enclosed inert (by decide) (.placeholder c _) (by decide)
  | @shift f column checked shifted given columned styled =>
    refine .enclosed inert ?_ (.shifted w c (.field columned)) (by decide)
    rcases shifted with shifted | shifted <;> rw [shifted] <;> decide
  | edge checked edged given columned =>
    refine .enclosed inert ?_ (.field columned) (by decide)
    rcases edged with edged | edged <;> rw [edged] <;> decide
  | @aggregate kind column checked aggregates columned =>
    exact .enclosed inert (by cases kind <;> decide) (.aggregateField columned (by decide))
      (by decide)

theorem Sql.Weighs.subqueryLeft {c : Context} {op : Operator} {field : Option Field}
    (started : subqueryLeft c field op = .ok left) : left.Weighs spell {} {} := by
  rcases subqueryLeft_ok started with ⟨-, existence, rfl⟩ | ⟨g, column, -, columned, rfl⟩
  · exact .text (by cases op <;> decide)
  · exact (Field.weighed columned).closed (by cases op <;> decide)

theorem Sql.Weighs.parenthesised {P Q : Stance} (inert : SpelledInert spell) {e : Edge}
    (stands : P.Holds e) (runs : s.Runs P 0 Q 0) :
    Apart ((Sql.parenthesised s).lexemes spell) ∧ (Sql.parenthesised s).Weighs spell {} {} := by
  constructor
  · rw [Sql.parenthesised, List.append_assoc]
    exact Sql.apart_of_opened (by decide)
  · have inner : s.Weighs spell ⟨1, 0⟩ ⟨1, 0⟩ := .of_runs inert stands runs
    exact (Sql.Weighs.led (by decide) inner).closed (by decide)

end Sides

def Sql.Branches (spell : Hole → String) (s : Sql) : Prop :=
  Apart (s.lexemes spell) ∧ s.Weighs spell ⟨0, 1⟩ ⟨0, 1⟩

section Branches
variable {spell : Hole → String}

theorem Sql.Branches.flatten {parts : List Sql} (each : ∀ part ∈ parts, part.Branches spell) :
    Sql.Branches spell parts.flatten := by
  induction parts with
  | nil => exact ⟨trivial, .nil⟩
  | cons part rest ih =>
    obtain ⟨apart, weighs⟩ := each part List.mem_cons_self
    obtain ⟨apart', weighs'⟩ := ih fun other member => each other (List.mem_cons_of_mem _ member)
    refine ⟨?_, weighs.append apart' weighs'⟩
    rw [List.flatten_cons, Sql.lexemes_append apart']
    exact apart.append apart'

theorem Sql.Branches.chosen {s : Sql} (branches : s.Branches spell) :
    (sql "CASE" ++ s).Weighs spell {} ⟨0, 1⟩ := by
  have opens : (sql "CASE").Weighs spell {} ⟨0, 1⟩ := .text (by decide)
  exact opens.append branches.1 branches.2

end Branches

def Node.Weighs (spell : Hole → String) : Node → Sql → Prop
  | .whenClause _, s => s.Branches spell
  | .join _, _ | .query _, _ => True
  | _, s => s.Weighs spell {} {}

theorem Renders.weighed {c : Context} {n : Node} {s : Sql} {spell : Hole → String}
    (marked : SpelledMarked spell) (made : Renders c n s) : n.Weighs spell s := by
  have inert := marked.1
  -- what stands in brackets weighs nothing by its layout alone
  induction made with
  | field columned => exact Field.weighed columned
  | @aggregate c kind f column columned =>
    exact .enclosed inert (by cases kind <;> decide) (.aggregateField columned (by decide))
      (by decide)
  | @filtered c kind f column filter condition columned native filters ih =>
    exact .paired (p := 0) inert (by cases kind <;> decide) (.aggregateField columned (by decide))
      (by decide) (by decide) filters.laid (by decide)
  | @chosen c kind f column filter condition columned rewritten filters ih =>
    exact .paired (p := 0) inert (by cases kind <;> decide) filters.laid (by decide) (by decide)
      (.aggregateField columned (by decide)) (by decide)
  | case branched branches ih =>
    exact (Sql.Branches.flatten (forall_snd ih)).chosen.closed (by decide)
  | @caseElse c whens otherwise branched branches styled ih =>
    have value := (Sql.Weighs.placeholder marked c otherwise).shift 1
    exact ((Sql.Branches.flatten (forall_snd ih)).chosen.linked (n := ⟨0, 1⟩) (by decide)
      (by decide) value).closed (by decide)
  | coalesce several rendered =>
    exact .enclosed inert (by decide)
      (.commaList (forall_snd fun o member => .operand (rendered o member))) (by decide)
  | nullIf first second =>
    exact .paired (p := 0) inert (by decide) (.operand first) (by decide) (by decide)
      (.operand second) (by decide)
  | math columned argument => exact .mathCall inert _ (.field columned) (by simp)
  | mathWith columned argument styled =>
    exact .mathCall inert _ (.field columned) (by simpa using Phrase.placeholder _ _)
  | cast columned typed =>
    exact .enclosed inert (by decide) (.field columned) (weighsOut_castType typed)
  | window called partition listed order frame ih =>
    have rows := Worded.window partition (forall_snd fun o inside => (order o inside).laid) frame
    have stands : Stance.Holds .clear .loose := by simp [Stance.Holds]
    exact ((called.weighed inert).linked (by decide) (by decide)
      (.of_runs (p := 0) (k := 0) inert stands rows)).closed (by decide)
  | @binary c f op p column text columned styled joined =>
    exact .binary inert joined (Field.weighed columned) (.field columned)
      (.placeholder marked c p) (.placeholder c p)
  | projected _ ih => exact ih
  | @aliased c e text output _ ih =>
    have named : Sql.Weighs spell {} [.name .outputAlias output.name] {} :=
      .of_bare (Bare.single rfl)
    have whole :
        Sql.Weighs spell {} (text ++ sql " AS " ++ [Piece.name .outputAlias output.name]) {} :=
      ih.linked (by decide) (by decide) named
    rwa [List.append_assoc] at whole
  | @ordered c e text direction _ ih => exact ih.closed (by cases direction <;> decide)
  | @orderedNulls c e text direction nulls _ supported ih =>
    exact ih.closed (by cases direction <;> cases nulls <;> decide)
  | @whenClause c x text result holds styled ih =>
    refine ⟨?_, ?_⟩
    · rw [List.append_assoc, List.append_assoc]
      exact Sql.apart_of_opened (by decide)
    · have opens : (sql " WHEN " ++ text).Weighs spell ⟨0, 1⟩ ⟨0, 1⟩ :=
        .led (by decide) (ih.shift 1)
      have value := (Sql.Weighs.placeholder marked c result).shift 1
      exact opens.linked (n := ⟨0, 1⟩) (by decide) (by decide) value
  | @null c scope nested f op column columned unary =>
    refine (Field.weighed columned).closed ?_
    cases op <;> simp_all <;> decide
  | @simple c scope nested f op p column columned binary takes styled =>
    exact .compareSides inert op (Field.weighed columned) (.field columned)
      (.placeholder marked c p) (.placeholder c p)
  | only single ih => exact ih
  | @group c scope nested op items several members ih =>
    cases nested with
    | false => exact .join (by cases op <;> decide) (by cases op <;> decide) (forall_snd ih)
    | true =>
      have inside : Phrase (Sql.join (" " ++ op.keyword ++ " ") (items.map Prod.snd)) :=
        .join (by cases op <;> decide) (forall_snd fun x member => (members x member).laid)
      exact .enclosed inert (by decide) inside (by decide)
  | fieldComparison comparing first second =>
    exact .compareSides inert _ (Field.weighed first) (.field first) (Field.weighed second)
      (.field second)
  | subquery started reading entered inner ih =>
    have worded := inner.laid.2 (operation_of_checkSubquery reading)
    have stands : Stance.Holds .clear .loose := by simp [Stance.Holds]
    obtain ⟨apart, query⟩ := Sql.Weighs.parenthesised inert stands worded
    exact (Sql.Weighs.subqueryLeft started).append apart query
  | @between c scope nested f low high negated column columned styled =>
    have links : weighsOut (if negated then " NOT BETWEEN " else " BETWEEN ").toList {} {} =
        true := by
      cases negated <;> decide
    have lower := (Field.weighed columned).linked links (by cases negated <;> decide)
      (.placeholder marked c low)
    exact lower.linked (by decide) (by decide) (.placeholder marked c high)
  | @aggregateCondition c nested kind f op p column comparing columned styled =>
    have aggregated : (sql (aggregateOpening kind) ++ column.getD (sql "*") ++ sql ")").Weighs
        spell {} {} :=
      .enclosed inert (by cases kind <;> decide) (.aggregateField columned (by decide)) (by decide)
    exact aggregated.linked (by cases op <;> decide) (by cases op <;> decide)
      (.placeholder marked c p)
  | @expression c scope nested e op p left comparing placed computed styled ih =>
    exact .compareSides inert op ih computed.laid (.placeholder marked c p) (.placeholder c p)
  | @assignedParam c p styled => exact .placeholder marked c p
  | assignedExpr admitted _ ih => exact ih
  | _ => trivial

end TypedSql
