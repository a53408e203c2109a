import Mathlib.Logic.Basic
import TypedSql.Proofs.NameMap
import TypedSql.Registry
import TypedSql.Schema.Basic

namespace TypedSql

section Suggestion

def distance (name candidate : String) : Nat := editDistance name.toList candidate.toList

def Near (name candidate : String) : Prop :=
  0 < distance name candidate ∧ distance name candidate ≤ suggestionLimit name.utf8ByteSize

theorem leastEntry_eq_none_iff {entries : List (String × Nat)} :
    leastEntry entries = none ↔ entries = [] := by
  cases entries with
  | nil => simp [leastEntry]
  | cons e rest =>
    simp only [leastEntry]
    split
    · split <;> simp
    · simp

theorem leastEntry_least {entries : List (String × Nat)} {best : String × Nat}
    (found : leastEntry entries = some best) : best ∈ entries ∧ ∀ e ∈ entries, best.2 ≤ e.2 := by
  induction entries generalizing best with
  | nil => cases found
  | cons e rest ih =>
    simp only [leastEntry] at found
    split at found
    · rename_i other rest'
      obtain ⟨member, least⟩ := ih rest'
      split at found <;> cases found
      · rename_i nearer
        exact ⟨List.mem_cons_of_mem _ member, List.forall_mem_cons.mpr ⟨Nat.le_of_lt nearer, least⟩⟩
      · rename_i nearest
        refine ⟨List.mem_cons_self, List.forall_mem_cons.mpr ⟨Nat.le_refl _, fun x inside => ?_⟩⟩
        exact Nat.le_trans (Nat.not_lt.mp nearest) (least x inside)
    · rename_i none
      cases found
      simp [leastEntry_eq_none_iff.mp none]

theorem leastEntry_first {entries : List (String × Nat)} {best : String × Nat}
    (ascending : entries.Pairwise fun a b => a.1 < b.1) (found : leastEntry entries = some best) :
    ∀ e ∈ entries, e.2 = best.2 → best.1 ≤ e.1 := by
  induction entries generalizing best with
  | nil => cases found
  | cons e rest ih =>
    obtain ⟨above, ascending⟩ := List.pairwise_cons.mp ascending
    simp only [leastEntry] at found
    split at found
    · rename_i other rest'
      split at found <;> cases found
      · rename_i nearer
        refine List.forall_mem_cons.mpr ⟨fun same => ?_, ih ascending rest'⟩
        omega
      · exact List.forall_mem_cons.mpr ⟨fun _ => String.le_refl _,
          fun x inside _ => Std.le_of_lt (above x inside)⟩
    · rename_i none
      cases found
      simp [leastEntry_eq_none_iff.mp none]

def nearby (name : String) (candidates : List String) : List (String × Nat) :=
  candidates.filterMap fun c =>
    if 0 < distance name c ∧ distance name c ≤ suggestionLimit name.utf8ByteSize then
      some (c, distance name c)
    else none

theorem suggest_eq (name : String) (candidates : List String) :
    suggest name candidates = (leastEntry (nearby name candidates)).map (·.1) := rfl

variable {name best : String} {candidates : List String}

theorem mem_nearby {e : String × Nat} :
    e ∈ nearby name candidates ↔ e.1 ∈ candidates ∧ Near name e.1 ∧ e.2 = distance name e.1 := by
  simp only [nearby, List.mem_filterMap]
  constructor
  · rintro ⟨c, member, kept⟩
    split at kept <;> cases kept
    rename_i near
    exact ⟨member, near, rfl⟩
  · rintro ⟨member, near, same⟩
    exact ⟨e.1, member, (if_pos near).trans (by rw [← same])⟩

theorem suggest_eq_none_iff : suggest name candidates = none ↔ ∀ c ∈ candidates, ¬Near name c := by
  rw [suggest_eq, Option.map_eq_none_iff, leastEntry_eq_none_iff, List.eq_nil_iff_forall_not_mem]
  constructor
  · intro none c member near
    exact none (c, distance name c) (mem_nearby.mpr ⟨member, near, rfl⟩)
  · intro far e member
    obtain ⟨inside, near, -⟩ := mem_nearby.mp member
    exact far e.1 inside near

theorem suggest_nearest (found : suggest name candidates = some best) :
    best ∈ candidates ∧ Near name best ∧
      ∀ c ∈ candidates, Near name c → distance name best ≤ distance name c := by
  rw [suggest_eq, Option.map_eq_some_iff] at found
  obtain ⟨e, least, rfl⟩ := found
  obtain ⟨member, least⟩ := leastEntry_least least
  obtain ⟨inside, near, same⟩ := mem_nearby.mp member
  refine ⟨inside, near, fun c member near => ?_⟩
  rw [← same]
  exact least (c, distance name c) (mem_nearby.mpr ⟨member, near, rfl⟩)

theorem suggest_first (ascending : candidates.Pairwise (· < ·))
    (found : suggest name candidates = some best) :
    ∀ c ∈ candidates, distance name c = distance name best → best ≤ c := by
  rw [suggest_eq, Option.map_eq_some_iff] at found
  obtain ⟨e, least, rfl⟩ := found
  obtain ⟨inside, near, same⟩ := mem_nearby.mp (leastEntry_least least).1
  have ordered : (nearby name candidates).Pairwise fun a b => a.1 < b.1 := by
    refine List.Pairwise.filterMap _ (fun a b before x kept y kept' => ?_) ascending
    split at kept <;> cases kept
    split at kept' <;> cases kept'
    exact before
  intro c member tied
  have entry : (c, distance name c) ∈ nearby name candidates :=
    mem_nearby.mpr ⟨member, by rwa [Near, tied], rfl⟩
  exact leastEntry_first ordered least _ entry (tied.trans same.symm)

theorem suggest_eq_iff {sorted listed : List String} (ascending : sorted.Pairwise (· < ·))
    (same : ∀ c, c ∈ sorted ↔ c ∈ listed) :
    suggest name sorted = suggest name listed ↔
      ∀ first, suggest name listed = some first →
        ∀ c ∈ listed, distance name c = distance name first → first ≤ c := by
  cases second : suggest name listed with
  | none =>
    have far := suggest_eq_none_iff.mp second
    have none : suggest name sorted = none :=
      suggest_eq_none_iff.mpr fun c member => far c ((same c).mp member)
    simp [none]
  | some first =>
    obtain ⟨inside, near, least⟩ := suggest_nearest second
    cases found : suggest name sorted with
    | none => exact absurd near (suggest_eq_none_iff.mp found first ((same first).mpr inside))
    | some best =>
      obtain ⟨inside', near', least'⟩ := suggest_nearest found
      have tied : distance name best = distance name first :=
        Nat.le_antisymm (least' first ((same first).mpr inside) near)
          (least best ((same best).mp inside') near')
      constructor
      · rintro equal _ ⟨⟩ c member as_near
        cases equal
        exact suggest_first ascending found c ((same c).mpr member) as_near
      · intro lowest
        have below := lowest first rfl best ((same best).mp inside') tied
        have above := suggest_first ascending found first ((same first).mpr inside) tied.symm
        rw [String.le_antisymm above below]

end Suggestion

inductive Registration where
  | table (name : String) (fields : List String)
  | outputAlias (name : String)
  deriving DecidableEq, Repr

namespace Registration

def tables : Registration → List String
  | .table name _ => [name]
  | .outputAlias _ => []

def fields : Registration → List String
  | .table _ fields => fields
  | .outputAlias _ => []

def aliases : Registration → List String
  | .table _ _ => []
  | .outputAlias name => [name]

end Registration

namespace Registry

def take (r : Registry) : Registration → Registry
  | .table name fields => r.registerTable name fields
  | .outputAlias name => r.registerAlias name

def filled (steps : List Registration) : Registry := steps.foldl take empty

def HasField (r : Registry) (f : String) : Prop := ∃ e ∈ r.tables.entries, f ∈ e.2.names

section Steps
variable {r : Registry} {step : Registration} {n : String}

theorem mem_tableNames_take :
    n ∈ (r.take step).tableNames ↔ n ∈ r.tableNames ∨ n ∈ step.tables := by
  cases step with
  | table name fields =>
    simp [take, registerTable, tableNames, NameMap.mem_names_insert, Registration.tables, or_comm]
  | outputAlias name => simp [take, registerAlias, tableNames, Registration.tables]

theorem mem_known {name : String} :
    n ∈ ((r.tables.get? name).getD .empty).names ↔
      ∃ fields, (name, fields) ∈ r.tables.entries ∧ n ∈ fields.names := by
  cases known : r.tables.get? name with
  | none =>
    have absent : ∀ fields, (name, fields) ∉ r.tables.entries := by
      intro fields member
      simp [NameMap.get?_eq_some_iff.mpr member] at known
    simp [absent, NameMap.names, NameMap.empty]
  | some fields =>
    have member := NameMap.get?_eq_some_iff.mp known
    constructor
    · exact fun inside => ⟨fields, member, inside⟩
    · rintro ⟨others, member', inside⟩
      have same := NameMap.get?_eq_some_iff.mpr member'
      obtain rfl : fields = others := Option.some.inj (known.symm.trans same)
      exact inside

theorem hasField_take : (r.take step).HasField n ↔ r.HasField n ∨ n ∈ step.fields := by
  cases step with
  | table name fields =>
    simp only [take, registerTable, HasField, NameMap.mem_insert_iff, Registration.fields]
    constructor
    · rintro ⟨e, rfl | ⟨member, -⟩, inside⟩
      · rcases NameSet.mem_names_addAll.mp inside with known | new
        · obtain ⟨others, member, inside⟩ := mem_known.mp known
          exact .inl ⟨_, member, inside⟩
        · exact .inr new
      · exact .inl ⟨e, member, inside⟩
    · rintro (⟨⟨table, others⟩, member, inside⟩ | new)
      · by_cases same : table = name
        · subst same
          have known := mem_known.mpr ⟨others, member, inside⟩
          exact ⟨_, .inl rfl, NameSet.mem_names_addAll.mpr (.inl known)⟩
        · exact ⟨_, .inr ⟨member, same⟩, inside⟩
      · exact ⟨_, .inl rfl, NameSet.mem_names_addAll.mpr (.inr new)⟩
  | outputAlias name => simp [take, registerAlias, HasField, Registration.fields]

theorem mem_aliases_take :
    n ∈ (r.take step).aliases.names ↔ n ∈ r.aliases.names ∨ n ∈ step.aliases := by
  cases step with
  | table name fields => simp [take, registerTable, Registration.aliases]
  | outputAlias name =>
    simp [take, registerAlias, NameSet.add, NameMap.mem_names_insert, Registration.aliases, or_comm]

end Steps

section Filled
variable {steps : List Registration} {n : String}

theorem filled_iff {P : Registry → Prop} {Q : Registration → Prop} (nothing : ¬P empty)
    (each : ∀ r step, P (r.take step) ↔ P r ∨ Q step) :
    P (filled steps) ↔ ∃ step ∈ steps, Q step := by
  have run : ∀ r, P (steps.foldl take r) ↔ P r ∨ ∃ step ∈ steps, Q step := by
    induction steps with
    | nil => simp
    | cons step rest ih =>
      intro r
      simp only [List.foldl_cons, ih, each, List.mem_cons, exists_eq_or_imp, or_assoc]
  exact (run empty).trans (or_iff_right nothing)

theorem mem_tableNames_filled :
    n ∈ (filled steps).tableNames ↔ ∃ step ∈ steps, n ∈ step.tables :=
  filled_iff (P := fun r => n ∈ r.tableNames)
    (by simp [empty, tableNames, NameMap.names, NameMap.empty]) fun _ _ => mem_tableNames_take

theorem hasField_filled : (filled steps).HasField n ↔ ∃ step ∈ steps, n ∈ step.fields :=
  filled_iff (P := fun r => r.HasField n) (by simp [empty, HasField, NameMap.empty])
    fun _ _ => hasField_take

theorem mem_aliases_filled :
    n ∈ (filled steps).aliases.names ↔ ∃ step ∈ steps, n ∈ step.aliases :=
  filled_iff (P := fun r => n ∈ r.aliases.names) (by simp [empty, NameMap.names, NameMap.empty])
    fun _ _ => mem_aliases_take

end Filled

theorem tableExists_iff {r : Registry} {n : String} : r.tableExists n = true ↔ n ∈ r.tableNames :=
  NameMap.contains_iff

theorem fieldExists_iff {r : Registry} {n : String} : r.fieldExists n = true ↔ r.HasField n := by
  simp only [fieldExists, HasField, NameMap.values, List.any_map, List.any_eq_true,
    Function.comp_apply, NameMap.contains_iff]

theorem mem_fieldNames {r : Registry} {n : String} : n ∈ r.fieldNames ↔ r.HasField n := by
  simp only [fieldNames, NameSet.mem_names_ofNames, HasField, NameMap.values, List.flatMap_map,
    List.mem_flatMap]

end Registry

namespace Schema

def registrations (s : Schema) : List Registration :=
  (s.tables.map fun table => .table table.name (table.columns.map (·.name))) ++
    s.aliases.map .outputAlias

variable {s : Schema} {n : String}

theorem exists_registration {Q : Registration → Prop} :
    (∃ step ∈ s.registrations, Q step) ↔
      (∃ table ∈ s.tables, Q (.table table.name (table.columns.map (·.name)))) ∨
        ∃ name ∈ s.aliases, Q (.outputAlias name) := by
  simp only [registrations, List.mem_append, List.mem_map, or_and_right, exists_or,
    exists_exists_and_eq_and]

theorem tableExists_iff : s.tableExists n = true ↔ n ∈ s.tableNames := by
  simp [tableExists, findTable?, tableNames]

theorem mem_tableNames_iff : n ∈ s.tableNames ↔ ∃ step ∈ s.registrations, n ∈ step.tables := by
  simp [exists_registration, tableNames, Registration.tables, eq_comm]

theorem fieldExists_iff : s.fieldExists n = true ↔ ∃ step ∈ s.registrations, n ∈ step.fields := by
  simp [exists_registration, fieldExists, TableDef.findColumn?, Registration.fields]

theorem mem_fieldNames_iff : n ∈ s.fieldNames ↔ ∃ step ∈ s.registrations, n ∈ step.fields := by
  simp [exists_registration, fieldNames, NameSet.mem_names_ofNames, Registration.fields]

theorem aliasRegistered_iff :
    s.aliasRegistered n = true ↔ ∃ step ∈ s.registrations, n ∈ step.aliases := by
  simp [exists_registration, aliasRegistered, Registration.aliases]

end Schema

theorem Registry.catalog_filled {s : Schema} {steps : List Registration}
    (told : steps.Perm s.registrations) :
    (filled steps).catalog =
      { s.catalog with tableNames := (NameSet.ofNames s.tableNames).names } := by
  have same {Q : Registration → Prop} :
      (∃ step ∈ steps, Q step) ↔ ∃ step ∈ s.registrations, Q step := by
    simp only [told.mem_iff]
  have tables {n : String} : n ∈ (filled steps).tableNames ↔ n ∈ s.tableNames := by
    rw [mem_tableNames_filled, same, Schema.mem_tableNames_iff]
  have exist : (filled steps).tableExists = s.tableExists := by
    funext n
    rw [Bool.eq_iff_iff, tableExists_iff, tables, Schema.tableExists_iff]
  have fields : (filled steps).fieldExists = s.fieldExists := by
    funext n
    rw [Bool.eq_iff_iff, fieldExists_iff, hasField_filled, same, Schema.fieldExists_iff]
  have aliases : (filled steps).aliasRegistered = s.aliasRegistered := by
    funext n
    rw [Bool.eq_iff_iff, aliasRegistered, NameMap.contains_iff, mem_aliases_filled, same,
      Schema.aliasRegistered_iff]
  have listed : (filled steps).tableNames = (NameSet.ofNames s.tableNames).names :=
    NameMap.names_ext fun n => by rw [NameSet.mem_names_ofNames]; exact tables
  have listedFields : (filled steps).fieldNames = s.fieldNames := by
    refine NameMap.names_ext fun n => ?_
    show n ∈ (filled steps).fieldNames ↔ n ∈ s.fieldNames
    rw [mem_fieldNames, hasField_filled, same, Schema.mem_fieldNames_iff]
  rw [catalog, Schema.catalog, exist, fields, aliases, listed, listedFields]

/-- A schema and a registry that were told the same let the same names pass. They give the same
    answer to every name, the suggestion included, but where a schema declares a table before one
    of a lesser name that is as near to the name that is asked for. -/
theorem Registry.check_filled (s : Schema) {steps : List Registration}
    (told : steps.Perm s.registrations) (kind : NameKind) (name : String) :
    ((filled steps).catalog.check kind name = .ok () ↔ s.catalog.check kind name = .ok ()) ∧
      ((filled steps).catalog.check kind name = s.catalog.check kind name ↔
        (kind = .table → ∀ first,
          s.catalog.check .table name = .error (.unknownTable name (some first)) →
          ∀ c ∈ s.tableNames, distance name c = distance name first → first ≤ c)) := by
  rw [Registry.catalog_filled told]
  cases kind with
  | table =>
    cases empty : name.isEmpty
    · cases known : s.tableExists name
      · -- the one answer that depends on the order of the tables
        have listed : ∀ c, c ∈ (NameSet.ofNames s.tableNames).names ↔ c ∈ s.tableNames :=
          fun _ => NameSet.mem_names_ofNames
        simp only [Catalog.check, Schema.catalog, empty, known, Bool.false_eq_true, ↓reduceIte,
          reduceCtorEq, iff_self, true_and, Except.error.injEq, NameError.unknownTable.injEq,
          forall_const]
        exact suggest_eq_iff (NameMap.names_ascending _) listed
      · simp only [Catalog.check, Schema.catalog, empty, known]
        simp
    · simp only [Catalog.check, empty]
      simp
  | field | outputAlias | parameter | jsonKey => exact ⟨Iff.rfl, iff_of_true rfl nofun⟩

def itemsInOrder : Schema where
  tables := [{ name := "items_a", columns := [{ name := "id", type := "INT" }] },
    { name := "items_a" },
    { name := "items_b", columns := [{ name := "price", type := "INT" }] }]
  aliases := ["total amount"]

theorem itemsInOrder_agrees :
    itemsInOrder.registrations.reverse.Perm itemsInOrder.registrations ∧
      (Registry.filled itemsInOrder.registrations.reverse).catalog.check .table "items_c" =
        itemsInOrder.catalog.check .table "items_c" ∧
      (Registry.filled itemsInOrder.registrations.reverse).catalog.check .field "prices" =
        itemsInOrder.catalog.check .field "prices" := by
  have told := List.reverse_perm itemsInOrder.registrations
  refine ⟨told, (Registry.check_filled itemsInOrder told .table "items_c").2.mpr ?_,
    (Registry.check_filled itemsInOrder told .field "prices").2.mpr nofun⟩
  intro _ first asked
  have answer : itemsInOrder.catalog.check .table "items_c" =
      .error (.unknownTable "items_c" (some "items_a")) := rfl
  obtain rfl : "items_a" = first := by simpa [answer] using asked
  decide

def itemsOutOfOrder : Schema where
  tables := [{ name := "items_b" }, { name := "items_a" }]

theorem itemsOutOfOrder_disagrees :
    (Registry.filled itemsOutOfOrder.registrations).catalog.check .table "items_c" =
        .error (.unknownTable "items_c" (some "items_a")) ∧
      itemsOutOfOrder.catalog.check .table "items_c" =
        .error (.unknownTable "items_c" (some "items_b")) :=
  ⟨rfl, rfl⟩

end TypedSql
