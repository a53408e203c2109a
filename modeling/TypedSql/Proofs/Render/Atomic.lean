import TypedSql.Proofs.Render.Passage

namespace TypedSql

section Stillness
variable {spell : Hole → String} {s : Sql}

theorem Still.of_phrase (inert : SpelledInert spell) (phrase : Phrase s)
    (outside : ∀ k r, s.Passes spell ⟨0, k, r⟩ ⟨0, k, r⟩) : Still spell s := by
  intro p k r
  cases p with
  | zero => exact outside k r
  | succ p => exact .of_phrase inert phrase

theorem Still.placeholder (marked : SpelledMarked spell) (c : Context) (p : Param) :
    Still spell (c.placeholder p) := fun _ _ _ => .hole marked _

end Stillness

/-- What the grammar takes as a whole: no connective in it counts, and it ends where it seems to
    end. -/
structure Atomic (d : Dialect) (spell : Hole → String) (s : Sql) : Prop where
  passes : ∀ k r, s.Passes spell ⟨0, k, r⟩ ⟨0, k, r⟩
  begins : s.Begins d spell
  ends : s.Ends d spell

def starts (cs : List Char) : Bool := cs.head?.any fun c => !c.isWhitespace && c != '('

def finishes (cs : List Char) : Bool := cs.getLast?.any fun c => !c.isWhitespace

section Sides
variable {d : Dialect} {spell : Hole → String} {left right : Sql} {pre mid post : String} {p q : Nat}

theorem Atomic.linked (links : closes mid.toList 0 0 = true) (apart : closed mid.toList = true)
    (first : Still spell left) (begins : left.Begins d spell) (second : Still spell right)
    (ends : right.Ends d spell) : Atomic d spell (left ++ sql mid ++ right) where
  passes k r := (first 0 k r).linked links apart (second 0 k r)
  begins := begins.append.append
  ends := ends.append

theorem Atomic.linkedClosed (links : closes mid.toList 0 q = true)
    (apart : closed mid.toList = true) (closing : closes post.toList q 0 = true)
    (ends : finishes post.toList = true) (first : Still spell left) (begins : left.Begins d spell)
    (second : Still spell right) : Atomic d spell (left ++ sql mid ++ right ++ sql post) where
  passes k r := ((first 0 k r).linked links apart (second q k r)).closed closing
  begins := begins.append.append.append
  ends := .append (.text ends)

theorem Atomic.paired (leading : leads pre.toList 0 p = true) (begins : starts pre.toList = true)
    (links : closes mid.toList p q = true) (apart : closed mid.toList = true)
    (closing : closes post.toList q 0 = true) (ends : finishes post.toList = true)
    (first : Still spell left) (second : Still spell right) :
    Atomic d spell (sql pre ++ left ++ sql mid ++ right ++ sql post) where
  passes k r :=
    ((Sql.Passes.led leading (first p k r)).linked links apart (second q k r)).closed closing
  begins := Sql.Begins.append (.append (.append (.append (.text begins))))
  ends := .append (.text ends)

theorem Atomic.compareSides (op : Operator) (first : Still spell left)
    (begins : left.Begins d spell) (second : Still spell right) (ends : right.Ends d spell) :
    Atomic d spell (compareSides d left op right) := by
  cases op
  case isIn =>
    cases d
    case postgres =>
      exact .linkedClosed (q := 1) (by decide) (by decide) (by decide) (by decide) first begins
        second
    all_goals
      exact .linkedClosed (q := 2) (by decide) (by decide) (by decide) (by decide) first begins
        second
  case notIn =>
    cases d
    case postgres =>
      exact .linkedClosed (q := 1) (by decide) (by decide) (by decide) (by decide) first begins
        second
    case mySql =>
      exact .paired (p := 1) (q := 3) (by decide) (by decide) (by decide) (by decide) (by decide)
        (by decide) first second
    all_goals
      exact .linkedClosed (q := 2) (by decide) (by decide) (by decide) (by decide) first begins
        second
  case iLike | notILike =>
    cases d
    case postgres => exact .linked (by decide) (by decide) first begins second ends
    all_goals
      exact .paired (p := 1) (q := 1) (by decide) (by decide) (by decide) (by decide) (by decide)
        (by decide) first second
  all_goals exact .linked (by decide) (by decide) first begins second ends

end Sides

section Calls
variable {d : Dialect} {spell : Hole → String} {s left right : Sql} {k r : Nat}

theorem Sql.Passes.call (inert : SpelledInert spell) {name : String}
    (leading : leads (name ++ "(").toList 0 1 = true) {argument : Option Sql} (first : Phrase left)
    (second : ∀ s ∈ argument, Phrase s) :
    (Dialect.call name left argument).Passes spell ⟨0, k, r⟩ ⟨0, k, r⟩ := by
  cases argument with
  | none => exact .enclosed inert leading first (by decide)
  | some s => exact .paired inert leading first (by decide) (by decide) (second s rfl) (by decide)

theorem Sql.Passes.mathCall (inert : SpelledInert spell) (function : MathFunction)
    {argument : Option Sql} (first : Phrase left) (second : ∀ s ∈ argument, Phrase s) :
    (d.mathCall function left argument).Passes spell ⟨0, k, r⟩ ⟨0, k, r⟩ := by
  unfold Dialect.mathCall
  split
  · exact .call inert (by decide) first (by simp)
  · exact .call inert (by decide) first (by simpa using Phrase.text (by decide))
  · exact .call inert (by cases function <;> decide) first second

theorem Sql.Begins.call {name : String} (begins : starts (name ++ "(").toList = true)
    (argument : Option Sql) : (Dialect.call name left argument).Begins d spell := by
  have opening : (sql (name ++ "(")).Begins d spell := .text begins
  cases argument with
  | none => exact opening.append.append
  | some s => exact opening.append.append.append.append

theorem Sql.Begins.mathCall (function : MathFunction) (argument : Option Sql) :
    (d.mathCall function left argument).Begins d spell := by
  unfold Dialect.mathCall
  split
  · exact .call (by decide) _
  · exact .call (by decide) _
  · exact .call (by cases function <;> decide) _

theorem closes_castType {type : CastType} {name : String} (typed : d.castType type = .ok name) :
    closes (" AS " ++ name ++ ")").toList 1 0 = true :=
  Dialect.castType_all (fun name => closes (" AS " ++ name ++ ")").toList 1 0)
    (by intro d type; cases d <;> cases type <;> decide) typed

theorem Sql.Passes.binary {op : BinaryOp} (inert : SpelledInert spell)
    (made : d.binary left op right = .ok s) (first : Still spell left) (phrase : Phrase left)
    (second : Still spell right) (argument : Phrase right) :
    s.Passes spell ⟨0, k, r⟩ ⟨0, k, r⟩ := by
  rcases Dialect.binary_ok made with rfl | rfl | rfl
  · exact .paired inert (by decide) phrase (by decide) (by decide) argument (by decide)
  · exact (first 0 k r).linked (by decide) (by decide) (second 0 k r)
  · have links : closes (" " ++ op.symbol ++ " ").toList 0 0 = true := by cases op <;> decide
    exact (first 0 k r).linked links (by cases op <;> decide) (second 0 k r)

theorem Sql.Begins.binary {op : BinaryOp} (made : d.binary left op right = .ok s)
    (begins : left.Begins d spell) : s.Begins d spell := by
  rcases Dialect.binary_ok made with rfl | rfl | rfl
  · exact .append (.append (.append (.append (.text (by decide)))))
  · exact begins.append.append
  · exact begins.append.append

theorem WindowCall.Calls.passes {c : Context} {w : WindowCall} {call : Sql}
    (inert : SpelledInert spell) (calls : w.Calls c call) :
    call.Passes spell ⟨0, k, r⟩ ⟨0, k, r⟩ := by
  cases calls with
  | ranking checked ranks bare =>
    have text (name : String) (idle : quiet 0 (name.toList.foldr gather []) = some 0) :
        (sql name).Passes spell ⟨0, k, r⟩ ⟨0, k, r⟩ := by
      rw [Sql.Passes, Sql.lexemes_sql]
      exact pass_of_quiet idle k r
    rcases ranks with ranks | ranks | ranks <;> rw [ranks] <;> exact text _ (by decide)
  | ntile checked tiles bare given styled =>
    exact .enclosed inert (by decide) (.placeholder c _) (by decide)
  | @shift f column checked shifted given columned styled =>
    refine .enclosed inert ?_ (.shifted w c (.field columned)) (by decide)
    rcases shifted with shifted | shifted <;> rw [shifted] <;> decide
  | edge checked edged given columned =>
    refine .enclosed inert ?_ (.field columned) (by decide)
    rcases edged with edged | edged <;> rw [edged] <;> decide
  | @aggregate kind column checked aggregates columned =>
    exact .enclosed inert (by cases kind <;> decide) (.aggregateField columned (by decide))
      (by decide)

theorem WindowCall.Calls.begins {c : Context} {w : WindowCall} {call : Sql}
    (calls : w.Calls c call) : call.Begins d spell := by
  cases calls with
  | ranking checked ranks bare =>
    rcases ranks with ranks | ranks | ranks <;> rw [ranks] <;> exact .text (by decide)
  | ntile => exact .append (.append (.text (by decide)))
  | shift checked shifted given columned styled =>
    refine .append (.append (.text ?_))
    rcases shifted with shifted | shifted <;> rw [shifted] <;> decide
  | edge checked edged given columned =>
    refine .append (.append (.text ?_))
    rcases edged with edged | edged <;> rw [edged] <;> decide
  | @aggregate kind column checked aggregates columned =>
    exact .append (.append (.text (by cases kind <;> decide)))

end Calls

section Choices
variable {spell : Hole → String} {s t : Sql} {p k r : Nat}

def Branch (spell : Hole → String) (s : Sql) : Prop :=
  Apart (s.lexemes spell) ∧ ∀ k r, s.Passes spell ⟨0, k + 1, r⟩ ⟨0, k + 1, r⟩

theorem Branch.flatten {parts : List Sql} (each : ∀ part ∈ parts, Branch spell part) :
    Branch spell parts.flatten := by
  induction parts with
  | nil => exact ⟨trivial, fun _ _ => .nil⟩
  | cons part rest ih =>
    obtain ⟨apart, passes⟩ := each part List.mem_cons_self
    obtain ⟨apart', passes'⟩ := ih fun other member => each other (List.mem_cons_of_mem _ member)
    refine ⟨?_, fun k r => .append apart' (passes k r) (passes' k r)⟩
    rw [List.flatten_cons, Sql.lexemes_append apart']
    exact apart.append apart'

theorem Branch.chosen (branches : Branch spell s) (k r : Nat) :
    (sql "CASE" ++ s).Passes spell ⟨0, k, r⟩ ⟨0, k + 1, r⟩ := by
  refine .append branches.1 ?_ (branches.2 k r)
  rw [Sql.Passes, Sql.lexemes_sql]
  rfl

theorem Sql.Passes.finished (inner : s.Passes spell ⟨0, k, r⟩ ⟨0, k + 1, r⟩) :
    (s ++ sql " END").Passes spell ⟨0, k, r⟩ ⟨0, k, r⟩ := inner.suffixed (by decide) rfl

end Choices

section Conditions
variable {c : Context} {spell : Hole → String} {f : Field} {column text left : Sql}

theorem Atomic.null (columned : f.render c.dialect = .ok column) {op : Operator}
    (unary : op.isUnary = true) : Atomic c.dialect spell (column ++ sql (" " ++ op.symbol)) where
  passes k r := by
    have ends : closes (" " ++ op.symbol).toList 0 0 = true := by cases op <;> simp_all <;> decide
    exact (Field.still columned 0 k r).closed ends
  begins := (Field.begins columned).append
  ends := .append (.text (by cases op <;> decide))

theorem Atomic.between (marked : SpelledMarked spell) (columned : f.render c.dialect = .ok column)
    (low high : Param) (negated : Bool) :
    Atomic c.dialect spell
      (column ++ sql (if negated then " NOT BETWEEN " else " BETWEEN ") ++ c.placeholder low ++
        sql " AND " ++ c.placeholder high) where
  passes k r := by
    have left : column.Passes spell ⟨0, k, r⟩ ⟨0, k, r⟩ := Field.still columned 0 k r
    have lower (r : Nat) := Still.placeholder marked c low 0 k r
    have upper := Still.placeholder marked c high 0 k r
    have begins : opened (if negated then " NOT BETWEEN " else " BETWEEN ").toList = true := by
      cases negated <;> decide
    have ends : closed (if negated then " NOT BETWEEN " else " BETWEEN ").toList = true := by
      cases negated <;> decide
    -- outside of a choice BETWEEN takes the AND that follows, inside of one neither counts
    cases k with
    | zero =>
      have opens := left.bridged begins ends (by cases negated <;> rfl) (lower (r + 1))
      exact opens.bridged (by decide) (by decide) rfl upper
    | succ k =>
      have opens := left.bridged begins ends (by cases negated <;> rfl) (lower r)
      exact opens.bridged (by decide) (by decide) rfl upper
  begins := (Field.begins columned).append.append.append.append
  ends := .append (.hole marked _)

theorem Atomic.aggregate (marked : SpelledMarked spell) {kind : AggregateKind}
    {f : Option Field} {column : Option Sql} {op : Operator} (comparing : op.isComparison = true)
    (columned : aggregateField c.dialect kind f .aggregateField = .ok column) (p : Param) :
    Atomic c.dialect spell
      (sql (aggregateOpening kind) ++ column.getD (sql "*") ++ sql ")" ++
        sql (" " ++ op.symbol ++ " ") ++ c.placeholder p) where
  passes k r := by
    have argument : Phrase (column.getD (sql "*")) := .aggregateField columned (by decide)
    have leading : leads (aggregateOpening kind).toList 0 1 = true := by cases kind <;> decide
    have links : closes (" " ++ op.symbol ++ " ").toList 0 0 = true := by cases op <;> decide
    exact (Sql.Passes.enclosed marked.1 leading argument (by decide)).linked links
      (by cases op <;> decide) (Still.placeholder marked c p 0 k r)
  begins := .append (.append (.append (.append (.text (by cases kind <;> decide)))))
  ends := .append (.hole marked _)

theorem Atomic.subquery (inert : SpelledInert spell) {op : Operator} {field : Option Field}
    (started : subqueryLeft c field op = .ok left) (worded : Worded text) :
    Atomic c.dialect spell (left ++ Sql.parenthesised text) := by
  have stands : Stance.Holds .clear .loose := by simp [Stance.Holds]
  have query (k r : Nat) : (Sql.parenthesised text).Passes spell ⟨0, k, r⟩ ⟨0, k, r⟩ :=
    (Sql.Passes.led (q := 1) (by decide) (.of_runs inert stands worded)).closed (by decide)
  have apart : Apart ((Sql.parenthesised text).lexemes spell) := by
    rw [Sql.parenthesised, List.append_assoc]
    exact Sql.apart_of_opened (by decide)
  have finish : (left ++ Sql.parenthesised text).Ends c.dialect spell :=
    .append (.append (.text (by decide)))
  rcases subqueryLeft_ok started with ⟨-, existence, rfl⟩ | ⟨g, column, -, columned, rfl⟩
  · refine ⟨fun k r => .append apart ?_ (query k r), .append (.text ?_), finish⟩
    · have idle : quiet 0 ((op.symbol ++ " ").toList.foldr gather []) = some 0 := by
        cases op <;> decide
      rw [Sql.Passes, Sql.lexemes_sql]
      exact pass_of_quiet idle k r
    · cases op <;> decide
  · refine ⟨fun k r => .append apart ?_ (query k r), (Field.begins columned).append.append, finish⟩
    have links : closes (" " ++ op.symbol ++ " ").toList 0 0 = true := by cases op <;> decide
    exact (Field.still columned 0 k r).closed links

end Conditions

def Condition.IsLeaf : Condition → Prop
  | .group _ _ => False
  | _ => True

def Node.Outside (d : Dialect) (spell : Hole → String) : Node → Sql → Prop
  | .expr _, s => Still spell s ∧ s.Begins d spell
  | .whenClause _, s => Branch spell s
  | .condition _ _ x, s =>
    (x.IsLeaf → Atomic d spell s) ∧ ∀ k r, s.Passes spell ⟨0, k + 1, r⟩ ⟨0, k + 1, r⟩
  | _, _ => True

theorem Atomic.outside {d : Dialect} {spell : Hole → String} {s : Sql} (whole : Atomic d spell s)
    (scope : Scope) (nested : Bool) (x : Condition) :
    (Node.condition scope nested x).Outside d spell s :=
  ⟨fun _ => whole, fun k r => whole.passes (k + 1) r⟩

theorem Renders.outside {c : Context} {n : Node} {s : Sql} {spell : Hole → String}
    (marked : SpelledMarked spell) (made : Renders c n s) : n.Outside c.dialect spell s := by
  have inert := marked.1
  -- what stands in brackets passes by its layout alone, so only outside of brackets cases differ
  have call {e : Expr} {c : Context} {s : Sql} (made : Renders c (.expr e) s)
      (outside : ∀ k r, s.Passes spell ⟨0, k, r⟩ ⟨0, k, r⟩) (begins : s.Begins c.dialect spell) :
      (Node.expr e).Outside c.dialect spell s :=
    ⟨.of_phrase inert made.laid outside, begins⟩
  induction made with
  | field columned => exact ⟨Field.still columned, Field.begins columned⟩
  | @aggregate c kind f column columned =>
    refine call (.aggregate columned) (fun k r => ?_) (.append (.append (.text ?_)))
    · exact .enclosed inert (by cases kind <;> decide) (.aggregateField columned (by decide))
        (by decide)
    · cases kind <;> decide
  | @filtered c kind f column filter condition columned native filters ih =>
    refine call (.filtered columned native filters) (fun k r => ?_)
      (.append (.append (.append (.append (.text ?_)))))
    · exact .paired inert (by cases kind <;> decide) (.aggregateField columned (by decide))
        (by decide) (by decide) filters.laid (by decide)
    · cases kind <;> decide
  | @chosen c kind f column filter condition columned rewritten filters ih =>
    refine call (.chosen columned rewritten filters) (fun k r => ?_)
      (.append (.append (.append (.append (.text ?_)))))
    · exact .paired inert (by cases kind <;> decide) filters.laid (by decide) (by decide)
        (.aggregateField columned (by decide)) (by decide)
    · cases kind <;> decide
  | case branched branches ih =>
    have branches' := Branch.flatten (forall_snd ih)
    exact call (.case branched branches) (fun k r => (branches'.chosen k r).finished)
      (.append (.append (.text (by decide))))
  | @caseElse c whens otherwise branched branches styled ih =>
    have branches' := Branch.flatten (forall_snd ih)
    refine call (.caseElse branched branches styled) (fun k r => ?_)
      (.append (.append (.append (.append (.text (by decide))))))
    have value := Still.placeholder marked c otherwise 0 (k + 1) r
    exact ((branches'.chosen k r).linked (by decide) (by decide) value).finished
  | coalesce several rendered =>
    refine call (.coalesce several rendered) (fun k r => ?_)
      (.append (.append (.text (by decide))))
    exact .enclosed inert (by decide)
      (.commaList (forall_snd fun o member => .operand (rendered o member))) (by decide)
  | nullIf first second =>
    exact call (.nullIf first second)
      (fun k r => .paired inert (by decide) (.operand first) (by decide) (by decide)
        (.operand second) (by decide))
      (.append (.append (.append (.append (.text (by decide))))))
  | math columned argument =>
    exact call (.math columned argument)
      (fun k r => .mathCall inert _ (.field columned) (by simp)) (.mathCall _ _)
  | mathWith columned argument styled =>
    exact call (.mathWith columned argument styled)
      (fun k r => .mathCall inert _ (.field columned) (by simpa using Phrase.placeholder _ _))
      (.mathCall _ _)
  | cast columned typed =>
    exact call (.cast columned typed)
      (fun k r => .enclosed inert (by decide) (.field columned) (closes_castType typed))
      (.append (.append (.text (by decide))))
  | window called partition listed order frame ih =>
    have rows := Worded.window partition (forall_snd fun o inside => (order o inside).laid) frame
    have stands : Stance.Holds .clear .loose := by simp [Stance.Holds]
    refine call (.window called partition listed order frame) (fun k r => ?_)
      (.append (.append (.append called.begins)))
    have links : closes " OVER (".toList 0 1 = true := by decide
    exact ((called.passes inert).linked links (by decide)
      (.of_runs inert stands rows)).closed (by decide)
  | @binary c f op p column text columned styled joined =>
    exact call (.binary columned styled joined)
      (fun k r => .binary inert joined (Field.still columned) (.field columned)
        (.placeholder marked c p) (.placeholder c p))
      (.binary joined (Field.begins columned))
  | @whenClause c x text result holds styled ih =>
    refine ⟨?_, fun k r => ?_⟩
    · rw [List.append_assoc, List.append_assoc]
      exact Sql.apart_of_opened (by decide)
    · have value := Still.placeholder marked c result 0 (k + 1) r
      have leading : leads " WHEN ".toList 0 0 = true := by decide
      exact (Sql.Passes.led leading (ih.2 k r)).linked (by decide) (by decide) value
  | null columned unary => exact (Atomic.null columned unary).outside _ _ _
  | @simple c scope nested f op p column columned binary takes styled =>
    exact (Atomic.compareSides op (Field.still columned) (Field.begins columned)
      (.placeholder marked c p) (.hole marked _)).outside _ _ _
  | only single ih => exact ⟨False.elim, ih.2⟩
  | @group c scope nested op items several members ih =>
    refine ⟨False.elim, fun k r => ?_⟩
    cases nested with
    | false =>
      refine .join ?_ ?_ ?_ (forall_snd fun x member => (ih x member).2 k r)
      · cases op <;> decide
      · cases op <;> decide
      · cases op <;> rfl
    | true =>
      have inside : Phrase (Sql.join (" " ++ op.keyword ++ " ") (items.map Prod.snd)) :=
        .join (by cases op <;> decide) (forall_snd fun x member => (members x member).laid)
      exact .enclosed inert (by decide) inside (by decide)
  | fieldComparison comparing first second =>
    exact (Atomic.compareSides _ (Field.still first) (Field.begins first) (Field.still second)
      (Field.ends second)).outside _ _ _
  | subquery started reading entered inner ih =>
    have worded := inner.laid.2 (operation_of_checkSubquery reading)
    exact (Atomic.subquery inert started worded).outside _ _ _
  | between columned styled => exact (Atomic.between marked columned _ _ _).outside _ _ _
  | aggregateCondition comparing columned styled =>
    exact (Atomic.aggregate marked comparing columned _).outside _ _ _
  | @expression c scope nested e op p left comparing placed computed styled ih =>
    exact (Atomic.compareSides op ih.1 ih.2 (.placeholder marked c p)
      (.hole marked _)).outside _ _ _
  | _ => trivial

end TypedSql
