import TypedSql.Proofs.Render.Selection
import TypedSql.Proofs.Render.Sent

namespace TypedSql

def Query.isPaged (q : Query) : Bool := q.limit.isSome || q.offset.isSome

def CompoundQuery.isPaged (q : CompoundQuery) : Bool := q.limit.isSome || q.offset.isSome

/-- That a query selects what an expression computes: by an entry of its projection, by the alias
    of one, or by projecting all columns. -/
def Query.Projects (q : Query) (e : Expr) : Prop :=
  (∃ f ∈ q.fields, f.expr = e ∨ ∃ a ∈ f.alias?, e = .field { name := a.name }) ∨
    (q.fields = [] ∧ ∃ f, e = .field f)

/-- When the order and the page of a query keep to the rules. -/
structure Query.Pages (nested : Bool) (q : Query) : Prop where
  counted : q.limit ≠ some 0
  listed : q.distinct = true → q.orderBy = [] → q.isPaged = false
  offset : nested = true → q.orderBy ≠ [] → q.isPaged = true

structure CompoundQuery.Pages (q : CompoundQuery) : Prop where
  counted : q.limit ≠ some 0
  listed : q.orderBy = [] → q.isPaged = false

def Statement.Projects : Statement → Prop
  | .query q => ∀ o ∈ q.orderBy, q.Projects o.expr
  | .compound q => ∀ o ∈ q.orderBy, q.base.Projects o.expr

/-- That the caller orders by what is projected, throughout a statement. -/
structure Statement.OrdersProjected (statement : Statement) : Prop where
  whole : statement.Projects
  nested : ∀ q ∈ statement.subqueries, ∀ o ∈ q.orderBy, q.Projects o.expr

def Statement.PagesWhole : Statement → Prop
  | .query q => q.Pages false
  | .compound q => q.Pages

/-- When the order and the page of a statement, and those of all its subqueries, keep to the
    rules. -/
structure Statement.Pages (statement : Statement) : Prop where
  whole : statement.PagesWhole
  nested : ∀ q ∈ statement.subqueries, q.Pages true

/-- That what is sent keeps to T-SQL's rules. -/
def Rendered.Admitted (r : Rendered) : Prop :=
  ∃ tokens, Dialect.sqlServer.lex r.sql.toList = some tokens ∧
    TypedSql.Admitted (visible (lexemes tokens))

section Listed
variable {c : Context} {spell : Hole → String} {s : Sql} {q : Query} {page : Page}

theorem visible_columnLexemes (f : Field) : visible f.columnLexemes = f.columnLexemes := by
  obtain ⟨n, qualifier, path⟩ := f
  rcases qualifier with _ | table | letter <;> rfl

theorem Field.visible_sqlServer {f : Field} (made : f.render .sqlServer = .ok s) :
    s.visible spell = f.columnLexemes := by
  obtain ⟨steps, walked, rfl⟩ := Field.render_ok_iff.mp made
  cases path : f.path with
  | none =>
    obtain rfl : steps = [] := by simpa [path, Dialect.pathSteps, eq_comm] using walked
    rw [List.append_nil, Sql.visible, Field.lexemes_column, visible_columnLexemes]
  | some path =>
    rw [path] at walked
    simp only [Dialect.pathSteps, Dialect.jsonAccess] at walked
    split at walked <;> cases walked

theorem Renders.visible_field {f : Field} (sqlServer : c.dialect = .sqlServer)
    (made : Renders c (.expr (.field f)) s) : s.visible spell = f.columnLexemes := by
  cases made with
  | field columned =>
    rw [sqlServer] at columned
    exact Field.visible_sqlServer columned

theorem Renders.unique {n : Node} {t : Sql} (made : Renders c n s) (other : Renders c n t) :
    s = t := by
  have same : s.holes = t.holes ∧ s = t := by
    simpa using made.render_eq.symm.trans other.render_eq
  exact same.2

theorem isColumn_columnLexemes (f : Field) : isColumn f.columnLexemes = true := by
  obtain ⟨n, qualifier, path⟩ := f
  rcases qualifier with _ | table | letter <;> rfl

theorem Query.lists_of_projects (marked : SpelledMarked spell) (sqlServer : c.dialect = .sqlServer)
    {fields : List (FieldExpr × Sql)} (listed : q.fields = fields.map Prod.fst)
    (projects : ∀ f ∈ fields, Renders c (.projected f.1) f.2)
    (selected : page.selected = (projectedTexts spell fields).flatMap known) {e : Expr}
    (projected : q.Projects e) (made : Renders c (.expr e) s) : page.Lists (s.visible spell) := by
  constructor
  · obtain ⟨x, rest, text, other, -⟩ := made.expr_visible marked sqlServer
    rw [text]
    intro same
    exact other (List.head_eq_of_cons_eq same)
  · rw [selected]
    rcases projected with ⟨f, member, known⟩ | ⟨none, f, rfl⟩
    · left
      rw [listed] at member
      obtain ⟨pair, inside, rfl⟩ := List.mem_map.mp member
      obtain ⟨t, plain, knows⟩ := (projects pair inside).known_projected marked sqlServer
      have among : pair.2.visible spell ∈ projectedTexts spell fields := by
        have full : fields.isEmpty = false := by simpa using List.ne_nil_of_mem inside
        rw [projectedTexts, full]
        exact List.mem_map_of_mem inside
      refine List.mem_flatMap.mpr ⟨_, among, ?_⟩
      rw [knows]
      rcases known with rfl | ⟨a, given, rfl⟩
      · rw [made.unique plain]
        exact List.mem_cons_self
      · rw [made.visible_field sqlServer, Option.mem_def.mp given]
        exact List.mem_cons_of_mem _ List.mem_cons_self
    · right
      have empty : fields = [] := List.map_eq_nil_iff.mp (listed.symm.trans none)
      rw [empty, made.visible_field sqlServer]
      exact ⟨rfl, isColumn_columnLexemes f⟩

theorem projectedTexts_entries (marked : SpelledMarked spell) (sqlServer : c.dialect = .sqlServer)
    {fields : List (FieldExpr × Sql)} (projects : ∀ f ∈ fields, Renders c (.projected f.1) f.2) :
    ∀ entry ∈ projectedTexts spell fields, still isSeam 0 entry = some 0 ∧
      ∃ x more, entry = x :: more ∧ x.reads "DISTINCT" = false := by
  intro entry member
  cases fields with
  | nil =>
    obtain rfl : entry = [.sign '*'] := by simpa [projectedTexts] using member
    exact ⟨by decide, _, _, rfl, rfl⟩
  | cons f rest =>
    obtain ⟨pair, inside, rfl⟩ := List.mem_map.mp member
    have made := projects pair inside
    exact ⟨(made.embeds marked sqlServer).1, made.projected_visible marked sqlServer⟩

theorem Query.page_selected (marked : SpelledMarked spell) (sqlServer : c.dialect = .sqlServer)
    {fields : List (FieldExpr × Sql)} (projects : ∀ f ∈ fields, Renders c (.projected f.1) f.2)
    {ls : List Lexeme} {rest : List (QueryWord × List Lexeme)}
    (falls : FallsInto ls ((.select, selection q.distinct (projectedTexts spell fields)) :: rest)) :
    (TypedSql.page ls).distinct = q.distinct ∧
      (TypedSql.page ls).selected = (projectedTexts spell fields).flatMap known := by
  have entries := projectedTexts_entries marked sqlServer projects
  exact page_of_selection falls (projectedTexts_ne_nil fields)
    (fun entry member => (entries entry member).1) fun entry member => (entries entry member).2

end Listed

section Queries
variable {c : Context} {spell : Hole → String} {s : Sql}

theorem tail_of_operands {operands : List (QueryWord × List Lexeme)} {items : List (List Lexeme)}
    {limit offset : Option UInt64} (all : ∀ clause ∈ operands, clause.1.isOperand = true) :
    (operands ++ tailClauses items limit offset).dropWhile (fun clause => clause.1.isOperand) =
      tailClauses items limit offset := by
  have first : (tailClauses items limit offset).dropWhile (fun clause => clause.1.isOperand) =
      tailClauses items limit offset := by
    cases items <;> cases limit <;> cases offset <;>
      simp [tailClauses, orderClauses, pageClauses, QueryWord.isOperand]
  rw [List.dropWhile_append_of_pos all, first]

theorem Query.pages_of_clauses {q : Query} (clauses : q.checkClauses = .ok ())
    (operation : q.operation ≠ .select) (nested : Bool) : q.Pages nested := by
  have absent := q.isPresent_eq_false clauses
  have limit : q.limit = none := by
    cases other : q.operation <;> rw [other] at absent operation <;>
      first | exact absurd rfl operation | simpa [Clause.isPresent] using absent .limit (by decide)
  have distinct : q.distinct = false := by
    cases other : q.operation <;> rw [other] at absent operation <;>
      first | exact absurd rfl operation | simpa [Clause.isPresent] using absent .distinct (by decide)
  obtain ⟨-, -, -, -, orderBy⟩ := q.selects_nothing clauses operation
  constructor <;> simp [limit, distinct, orderBy]

theorem page_admitted_iff (marked : SpelledMarked spell) (sqlServer : c.dialect = .sqlServer)
    {q : Query} {page : Page} {fields : List (FieldExpr × Sql)} {items : List (OrderBy × Sql)}
    {limit offset : Option UInt64} {nested : Bool} (listed : q.fields = fields.map Prod.fst)
    (projects : ∀ f ∈ fields, Renders c (.projected f.1) f.2)
    (order : ∀ o ∈ items, Renders c (.ordered o.1) o.2)
    (projected : ∀ o ∈ items, q.Projects o.1.expr)
    (selected : page.selected = (projectedTexts spell fields).flatMap known)
    (tail : page.tail = tailClauses (items.map fun o => o.2.visible spell) limit offset) :
    page.Admitted nested ↔
      limit ≠ some 0 ∧
        (page.distinct = true ∨ page.combined = true → items = [] →
          (limit.isSome || offset.isSome) = false) ∧
        (nested = true → items ≠ [] → (limit.isSome || offset.isSome) = true) := by
  have parted : ∀ item ∈ items.map (fun o => o.2.visible spell), still isSeam 0 item = some 0 := by
    intro item member
    obtain ⟨o, inside, rfl⟩ := List.mem_map.mp member
    exact ((order o inside).embeds marked sqlServer).1
  have lists : ∀ item ∈ items.map (fun o => o.2.visible spell), page.Lists (undirected item) := by
    intro item member
    obtain ⟨o, inside, rfl⟩ := List.mem_map.mp member
    obtain ⟨t, plain, computed⟩ := (order o inside).undirected_ordered marked sqlServer
    rw [computed]
    exact q.lists_of_projects marked sqlServer listed projects selected (projected o inside) plain
  rw [Page.admitted_iff tail parted fun _ => lists, ne_eq (List.map _ _), List.map_eq_nil_iff]

theorem page_select {ls selected source : List Lexeme} {items : List (List Lexeme)}
    {limit offset : Option UInt64}
    (falls : FallsInto ls ((.select, selected) :: (.source, source) :: tailClauses items limit offset)) :
    (page ls).combined = false ∧ (page ls).tail = tailClauses items limit offset := by
  constructor
  · rw [page, falls.pieces_eq]
    cases items <;> cases limit <;> cases offset <;>
      simp [tailClauses, orderClauses, pageClauses]
  · have operands : ∀ clause ∈ [(QueryWord.select, selected), (.source, source)],
        clause.1.isOperand = true := by simp [QueryWord.isOperand]
    rw [falls.tail_page]
    exact tail_of_operands operands

/-- What a reading query is rendered to keeps to the rules exactly if the query does. -/
theorem Query.admitted_iff {q : Query} (marked : SpelledMarked spell)
    (sqlServer : c.dialect = .sqlServer) (made : Renders c (.query q) s)
    (reading : q.operation = .select ∨ q.operation = .count)
    (projected : ∀ o ∈ q.orderBy, q.Projects o.expr) (nested : Bool) :
    (page (s.visible spell)).Admitted nested ↔ q.Pages nested := by
  rcases reading with operation | operation
  · obtain ⟨fields, items, source, listed, projects, itemsListed, order, falls⟩ :=
      q.select_falls marked sqlServer operation made
    obtain ⟨distinct, selected⟩ := q.page_selected marked sqlServer projects falls
    obtain ⟨combined, tail⟩ := page_select falls
    have ordered : ∀ o ∈ items, q.Projects o.1.expr := by
      intro o inside
      exact projected o.1 (itemsListed ▸ List.mem_map_of_mem inside)
    have unordered : items = [] ↔ q.orderBy = [] := by rw [itemsListed, List.map_eq_nil_iff]
    rw [page_admitted_iff marked sqlServer listed projects order ordered selected tail, distinct,
      combined, ne_eq items, unordered]
    constructor
    · rintro ⟨counted, lists, offset⟩
      exact ⟨counted, fun set => lists (.inl set), offset⟩
    · rintro ⟨counted, lists, offset⟩
      exact ⟨counted, fun set => lists (by simpa using set), offset⟩
  · obtain ⟨selected, source, falls⟩ := q.count_falls marked sqlServer operation made
    have pages : q.Pages nested := by
      cases made with
      | count _ clauses => exact q.pages_of_clauses clauses (by simp [operation]) nested
      | select other | insert other | update other | delete other =>
        rw [operation] at other
        cases other
    have admitted : (page (s.visible spell)).Admitted nested := by
      refine Page.admitted_of_tail ?_
      rw [falls.tail_page]
      rfl
    exact ⟨fun _ => pages, fun _ => admitted⟩

theorem CompoundQuery.admitted_iff {q : CompoundQuery} (marked : SpelledMarked spell)
    (sqlServer : c.dialect = .sqlServer) (made : Statement.Renders c (.compound q) s)
    (projected : ∀ o ∈ q.orderBy, q.base.Projects o.expr) :
    (page (s.visible spell)).Admitted false ↔ q.Pages := by
  cases made with
  | @compound _ base parts items several checked first partsListed supported more itemsListed
      order =>
    have plain {query : Query} (member : query ∈ q.operands) := plain_of_checkOperands checked member
    obtain ⟨fields, source, listed, projects, start⟩ :=
      q.base.operand_falls marked sqlServer (plain List.mem_cons_self) first
    have further : ∀ p ∈ parts, p.1.query.operation = .select ∧ p.1.query.orderBy = [] ∧
        p.1.query.limit = none ∧ p.1.query.offset = none := by
      intro p member
      refine plain (List.mem_cons_of_mem _ ?_)
      rw [partsListed]
      exact List.mem_map_of_mem (List.mem_map_of_mem member)
    obtain ⟨clauses, falls, operands, combined⟩ := operands_fall marked sqlServer further more
    have embeds := fun o (member : o ∈ items) => (order o member).embeds marked sqlServer
    obtain ⟨apart, -⟩ := closing_embeds embeds q.limit q.offset (!items.isEmpty)
    have same : (!q.orderBy.isEmpty) = !items.isEmpty := by rw [itemsListed]; cases items <;> rfl
    have whole := (start.append falls).append (closing_falls embeds q.limit q.offset)
    rw [← Sql.visible_append (apart_operands parts), ← Sql.visible_append apart] at whole
    rw [sqlServer, same, List.append_assoc (base ++ _)]
    generalize Sql.visible spell _ = ls at whole ⊢
    obtain ⟨-, selected⟩ := q.base.page_selected marked sqlServer projects whole
    have tail : (page ls).tail =
        tailClauses (items.map fun o => o.2.visible spell) q.limit q.offset := by
      rw [whole.tail_page]
      exact tail_of_operands (by simpa [QueryWord.isOperand] using operands)
    have set : (page ls).combined = true := by
      obtain ⟨all, member⟩ := combined (by simpa [partsListed] using several)
      rw [page, whole.pieces_eq]
      exact List.any_eq_true.mpr ⟨(.combine, all), by simp [member], rfl⟩
    have ordered : ∀ o ∈ items, q.base.Projects o.1.expr := by
      intro o inside
      exact projected o.1 (itemsListed ▸ List.mem_map_of_mem inside)
    have unordered : items = [] ↔ q.orderBy = [] := by rw [itemsListed, List.map_eq_nil_iff]
    rw [page_admitted_iff marked sqlServer listed projects order ordered selected tail, set, unordered]
    constructor
    · rintro ⟨counted, lists, -⟩
      exact ⟨counted, lists (.inr rfl)⟩
    · rintro ⟨counted, lists⟩
      exact ⟨counted, fun _ => lists, by simp⟩

end Queries

section Statements
variable {c : Context} {spell : Hole → String} {s : Sql} {statement : Statement}

theorem Sql.Headed.selects_eq {keyword : String} {asked : Set Query}
    (headed : s.Headed keyword spell asked) :
    selects (s.visible spell) = Lexeme.reads "SELECT" (.word keyword.toList) := by
  obtain ⟨rest, text, -⟩ := headed
  rw [text]
  rfl

theorem Operation.reads_opening (op : Operation) :
    Lexeme.reads "SELECT" (.word op.opening.toList) = true ↔ op = .select ∨ op = .count := by
  cases op <;> decide

theorem Statement.Renders.admitted_whole_iff (marked : SpelledMarked spell)
    (sqlServer : c.dialect = .sqlServer) (made : statement.Renders c s)
    (projected : statement.Projects) :
    (selects (s.visible spell) = true → (page (s.visible spell)).Admitted false) ↔
      statement.PagesWhole := by
  have headed := made.headed marked sqlServer
  cases statement with
  | query q =>
    obtain ⟨made⟩ := made
    have single := q.admitted_iff marked sqlServer made
    rw [headed.selects_eq, Statement.opening, q.operation.reads_opening]
    constructor
    · intro admitted
      by_cases reading : q.operation = .select ∨ q.operation = .count
      · exact (single reading projected false).mp (admitted reading)
      · have clauses : q.checkClauses = .ok () := by cases made <;> assumption
        exact q.pages_of_clauses clauses (fun selecting => reading (.inl selecting)) false
    · intro pages reading
      exact (single reading projected false).mpr pages
  | compound q =>
    have begins : Lexeme.reads "SELECT" (.word "SELECT".toList) = true := by decide
    rw [headed.selects_eq, q.admitted_iff marked sqlServer made projected]
    exact ⟨fun pages => pages begins, fun pages _ => pages⟩

/-- What a statement is rendered to keeps to the rules exactly if the statement does. -/
theorem Statement.Renders.admitted_iff (marked : SpelledMarked spell)
    (sqlServer : c.dialect = .sqlServer) (made : statement.Renders c s)
    (projected : statement.OrdersProjected) :
    Admitted (s.visible spell) ↔ statement.Pages := by
  have whole := made.admitted_whole_iff marked sqlServer projected.whole
  have inner := (made.headed marked sqlServer).contains.2
  have writes {q : Query} {text : List Lexeme} (member : q ∈ statement.subqueries)
      (writes : q.Writes spell text) : (page text).Admitted true ↔ q.Pages true := by
    obtain ⟨reading, child, t, dialect, made, rfl⟩ := writes
    exact q.admitted_iff marked dialect made reading (projected.nested q member) true
  constructor
  · intro admitted
    constructor
    · exact whole.mp admitted.whole
    · intro q member
      obtain ⟨text, among, written⟩ := inner.shown q member
      exact (writes member written).mp (admitted.nested text among)
  · intro pages
    constructor
    · exact whole.mpr pages.whole
    · intro text among
      rcases inner.told text among with admitted | ⟨q, member, written⟩
      · exact admitted
      · exact (writes member written).mpr (pages.nested q member)

/-- What is sent to SQL Server keeps to its rules for order and page exactly if no query fetches zero
    rows, none that is distinct or combined is paged without an order, and none in brackets is
    ordered without a page. -/
theorem Statement.sent_admitted_iff {options : RenderOptions} {r : Rendered}
    (sqlServer : options.dialect = .sqlServer) (sent : statement.toSql options = .ok r)
    (projected : statement.OrdersProjected) : r.Admitted ↔ statement.Pages := by
  obtain ⟨s, made, read, -⟩ := Statement.sent_tokens sent
  have marked : SpelledMarked (statement.spelling options) := spellHole_marked _ _ _
  rw [← made.admitted_iff marked sqlServer projected]
  rw [sqlServer] at read
  constructor
  · rintro ⟨tokens, lexed, admitted⟩
    rw [read, Option.some.injEq] at lexed
    rwa [← lexed] at admitted
  · intro admitted
    exact ⟨_, read, admitted⟩

end Statements

def sqlServerOptions : RenderOptions := { dialect := .sqlServer }

def fifthPage : Query where
  operation := .select
  table := { name := "u" }
  fields := [⟨.field { name := "owner" }, none⟩]
  orderBy := [⟨.field { name := "owner" }, .asc, none⟩]
  limit := some 5

def pagedOwners : Query where
  operation := .select
  table := { name := "t" }
  distinct := true
  fields := [⟨.field { name := "id" }, none⟩]
  filter := some (.subquery (some { name := "id" }) .isIn fifthPage)
  orderBy := [⟨.field { name := "id" }, .desc, none⟩]
  limit := some 10
  offset := some 20

def pagedOwnersSql : String :=
  "SELECT DISTINCT [id] FROM [t] WHERE [id] IN (SELECT [owner] FROM [u] ORDER BY [owner] ASC " ++
    "OFFSET 0 ROWS FETCH NEXT 5 ROWS ONLY) ORDER BY [id] DESC OFFSET 20 ROWS " ++
    "FETCH NEXT 10 ROWS ONLY"

theorem pagedOwners_subqueries : (Statement.query pagedOwners).subqueries = {fifthPage} := by
  have none : (Part.query fifthPage).asked = ∅ := by
    rw [Part.asked_query]
    simp [fifthPage]
  have condition (f : Option Field) (op : Operator) :
      (Part.condition (.subquery f op fifthPage)).asked = {fifthPage} := by
    rw [Part.asked_condition, Condition.asked, none, Set.union_empty]
  rw [Statement.subqueries_query, Part.asked_query]
  simp [pagedOwners, condition]

theorem pagedOwners_admitted :
    (Statement.query pagedOwners).toSql sqlServerOptions = .ok ⟨pagedOwnersSql, []⟩ ∧
      (Statement.query pagedOwners).OrdersProjected ∧
      Rendered.Admitted ⟨pagedOwnersSql, []⟩ := by
  have sent : (Statement.query pagedOwners).toSql sqlServerOptions =
      .ok ⟨pagedOwnersSql, []⟩ := by
    decide +kernel
  have projected : (Statement.query pagedOwners).OrdersProjected := by
    constructor
    · intro o member
      obtain rfl := List.mem_singleton.mp member
      exact .inl ⟨_, List.mem_cons_self, .inl rfl⟩
    · rw [pagedOwners_subqueries]
      rintro q rfl o member
      obtain rfl := List.mem_singleton.mp member
      exact .inl ⟨_, List.mem_cons_self, .inl rfl⟩
  have pages : (Statement.query pagedOwners).Pages := by
    constructor
    · exact ⟨by decide, by simp [pagedOwners], nofun⟩
    · rw [pagedOwners_subqueries]
      rintro q rfl
      exact ⟨by decide, by simp [fifthPage], fun _ _ => rfl⟩
  exact ⟨sent, projected, (Statement.sent_admitted_iff rfl sent projected).mpr pages⟩

def distinctPage : Query where
  operation := .select
  table := { name := "t" }
  distinct := true
  fields := [⟨.field { name := "id" }, none⟩]
  limit := some 10

def distinctPageSql : String :=
  "SELECT DISTINCT [id] FROM [t] ORDER BY (SELECT NULL) OFFSET 0 ROWS FETCH NEXT 10 ROWS ONLY"

/-- Distinct rows without an order are paged by what is not selected. -/
theorem distinctPage_unlisted :
    (Statement.query distinctPage).toSql sqlServerOptions = .ok ⟨distinctPageSql, []⟩ ∧
      ¬∀ (statement : Statement) (options : RenderOptions) (r : Rendered),
        options.dialect = .sqlServer → statement.toSql options = .ok r →
          statement.OrdersProjected → r.Admitted := by
  have sent : (Statement.query distinctPage).toSql sqlServerOptions = .ok ⟨distinctPageSql, []⟩ :=
    rfl
  have projected : (Statement.query distinctPage).OrdersProjected := by
    constructor
    · simp [Statement.Projects, distinctPage]
    · rw [Statement.subqueries_query]
      simp [Part.asked_query, distinctPage]
  refine ⟨sent, fun kept => ?_⟩
  obtain ⟨tokens, lexed, admitted⟩ := kept _ _ _ rfl sent projected
  have read : (Dialect.sqlServer.lex distinctPageSql.toList).all (fun tokens =>
      let text := visible (lexemes tokens)
      selects text && (page text).distinct &&
        decide ((.order, .word "BY".toList :: noOrder) ∈ (page text).tail)) = true := by
    decide +kernel
  rw [lexed, Option.all_some, Bool.and_eq_true, Bool.and_eq_true, decide_eq_true_eq] at read
  obtain ⟨⟨query, distinct⟩, order⟩ := read
  have unordered : noOrder ∈ orderItems (.word "BY".toList :: noOrder) := by decide
  exact ((admitted.whole query).listed (.inl distinct) _ order noOrder unordered).1 rfl

end TypedSql
