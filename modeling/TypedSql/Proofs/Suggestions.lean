import Mathlib.Data.List.Perm.Subperm
import TypedSql.Proofs.Catalogs
import TypedSql.Proofs.Text.EditDistance

namespace TypedSql

/-- That a name is the first of those that are nearest. -/
def FirstNearest (name : String) (candidates : List String) (best : String) : Prop :=
  ∃ before after, candidates = before ++ best :: after ∧
    (∀ c ∈ before, distance name best < distance name c) ∧
    ∀ c ∈ after, distance name best ≤ distance name c

section Nearest
variable {name best c : String} {candidates : List String}

theorem distance_pos (apart : name ≠ c) : 0 < distance name c := by
  refine Nat.pos_of_ne_zero fun near => apart ?_
  exact String.toList_inj.mp (editDistance_eq_zero near)

theorem suggest_cons_of_near (near : Near name c) :
    suggest name (c :: candidates) =
      match suggest name candidates with
      | some best => if distance name best < distance name c then some best else some c
      | none => some c := by
  have entries : nearby name (c :: candidates) = (c, distance name c) :: nearby name candidates :=
    List.filterMap_cons_some (if_pos near)
  rw [suggest_eq, suggest_eq, entries, leastEntry]
  cases least : leastEntry (nearby name candidates) with
  | none => rfl
  | some e =>
    obtain ⟨-, -, same⟩ := mem_nearby.mp (leastEntry_least least).1
    simp only [Option.map_some, same]
    split <;> rfl

theorem suggest_cons_of_far (far : ¬Near name c) :
    suggest name (c :: candidates) = suggest name candidates := by
  have entries : nearby name (c :: candidates) = nearby name candidates :=
    List.filterMap_cons_none (if_neg far)
  rw [suggest_eq, suggest_eq, entries]

theorem distance_lt_of_far (near : Near name best) (far : ¬Near name c) (apart : name ≠ c) :
    distance name best < distance name c := by
  have beyond : ¬distance name c ≤ suggestionLimit name.utf8ByteSize := fun within =>
    far ⟨distance_pos apart, within⟩
  exact Nat.lt_of_le_of_lt near.2 (Nat.lt_of_not_le beyond)

theorem firstNearest_of_suggest (unknown : name ∉ candidates)
    (found : suggest name candidates = some best) : FirstNearest name candidates best := by
  induction candidates generalizing best with
  | nil => cases found
  | cons c rest ih =>
    obtain ⟨apart, unknown⟩ : name ≠ c ∧ name ∉ rest := by simpa using unknown
    by_cases near : Near name c
    · rw [suggest_cons_of_near near] at found
      split at found
      · rename_i other later
        obtain ⟨before, after, rfl, farther, no_nearer⟩ := ih unknown later
        split at found <;> cases found
        · rename_i nearer
          exact ⟨c :: before, after, rfl, List.forall_mem_cons.mpr ⟨nearer, farther⟩, no_nearer⟩
        · rename_i nearest
          have least := Nat.le_of_not_lt nearest
          refine ⟨[], before ++ other :: after, rfl, by simp, ?_⟩
          refine List.forall_mem_append.mpr ⟨fun x member => ?_, List.forall_mem_cons.mpr ⟨least, ?_⟩⟩
          · exact Nat.le_trans least (Nat.le_of_lt (farther x member))
          · exact fun x member => Nat.le_trans least (no_nearer x member)
      · rename_i none
        cases found
        have far := suggest_eq_none_iff.mp none
        refine ⟨[], rest, rfl, by simp, fun x member => Nat.le_of_lt ?_⟩
        exact distance_lt_of_far near (far x member) fun same => unknown (same ▸ member)
    · rw [suggest_cons_of_far near] at found
      obtain ⟨-, near_best, -⟩ := suggest_nearest found
      obtain ⟨before, after, rfl, farther, no_nearer⟩ := ih unknown found
      have beyond := distance_lt_of_far near_best near apart
      exact ⟨c :: before, after, rfl, List.forall_mem_cons.mpr ⟨beyond, farther⟩, no_nearer⟩

theorem FirstNearest.mem (first : FirstNearest name candidates best) : best ∈ candidates := by
  obtain ⟨before, after, rfl, -⟩ := first
  simp

theorem FirstNearest.le (first : FirstNearest name candidates best) :
    ∀ c ∈ candidates, distance name best ≤ distance name c := by
  obtain ⟨before, after, rfl, farther, no_nearer⟩ := first
  have before_le : ∀ c ∈ before, distance name best ≤ distance name c := fun c member =>
    Nat.le_of_lt (farther c member)
  exact List.forall_mem_append.mpr
    ⟨before_le, List.forall_mem_cons.mpr ⟨Nat.le_refl _, no_nearer⟩⟩

theorem FirstNearest.find? (first : FirstNearest name candidates best) :
    candidates.find? (fun c => distance name c == distance name best) = some best := by
  obtain ⟨before, after, rfl, farther, -⟩ := first
  refine List.find?_eq_some_iff_append.mpr ⟨by simp, before, after, rfl, fun c member => ?_⟩
  simp [Nat.ne_of_gt (farther c member)]

theorem FirstNearest.unique {other : String} (first : FirstNearest name candidates best)
    (first' : FirstNearest name candidates other) : best = other := by
  have tied : distance name best = distance name other :=
    Nat.le_antisymm (first.le other first'.mem) (first'.le best first.mem)
  have found := first.find?
  rw [tied, first'.find?] at found
  exact (Option.some.inj found).symm

/-- A name that is not a candidate gets the first of the nearest, if that is within the limit. -/
theorem suggest_eq_some_iff (unknown : name ∉ candidates) :
    suggest name candidates = some best ↔
      FirstNearest name candidates best ∧
        distance name best ≤ suggestionLimit name.utf8ByteSize := by
  constructor
  · intro found
    exact ⟨firstNearest_of_suggest unknown found, (suggest_nearest found).2.1.2⟩
  · rintro ⟨first, within⟩
    have apart : name ≠ best := fun same => unknown (same ▸ first.mem)
    cases found : suggest name candidates with
    | none => exact absurd ⟨distance_pos apart, within⟩ (suggest_eq_none_iff.mp found best first.mem)
    | some other => rw [(firstNearest_of_suggest unknown found).unique first]

end Nearest

/-- The catalogs of the program, which know the names that they list. -/
inductive Catalog.Stored : Catalog → Prop
  | registry (r : Registry) : Stored r.catalog
  | schema (s : Schema) : Stored s.catalog

def Catalog.names (known : Catalog) : NameKind → List String
  | .table => known.tableNames
  | .field => known.fieldNames
  | _ => []

def NameError.suggestion? : NameError → Option String
  | .unknownTable _ suggestion | .unknownField _ suggestion => suggestion
  | _ => none

/-- That a name is refused, and another one suggested for it. -/
def Catalog.Suggests (known : Catalog) (kind : NameKind) (name best : String) : Prop :=
  ∃ e, known.check kind name = .error e ∧ e.suggestion? = some best

section Suggests
variable {known : Catalog} {kind : NameKind} {name best : String}

theorem Catalog.Stored.exists_eq (stored : known.Stored) (n : String) :
    known.tableExists n = decide (n ∈ known.tableNames) ∧
      known.fieldExists n = decide (n ∈ known.fieldNames) := by
  have decides {b : Bool} {p : Prop} [Decidable p] (same : b = true ↔ p) : b = decide p :=
    Bool.eq_iff_iff.mpr (same.trans decide_eq_true_iff.symm)
  cases stored with
  | registry r =>
    exact ⟨decides Registry.tableExists_iff,
      decides (Registry.fieldExists_iff.trans Registry.mem_fieldNames.symm)⟩
  | schema s =>
    exact ⟨decides Schema.tableExists_iff,
      decides (Schema.fieldExists_iff.trans Schema.mem_fieldNames_iff.symm)⟩

theorem suggestion_checkName {e : NameError} (refused : checkName kind name = .error e) :
    e.suggestion? = none := by
  unfold checkName checkWord at refused
  grind [NameError.suggestion?]

theorem Catalog.Stored.check_ok (stored : known.Stored) (kinds : kind = .table ∨ kind = .field)
    (some : name ≠ "") (listed : name ∈ known.names kind) : known.check kind name = .ok () := by
  obtain ⟨table, field⟩ := stored.exists_eq name
  rcases kinds with rfl | rfl
  · have known : name ∈ known.tableNames := listed
    simp [check, some, table, known]
  · have known : name ∈ known.fieldNames := listed
    simp [check, some, field, known]

/-- Suggestions are made for tables and for fields that are not listed. -/
theorem Catalog.Stored.suggests_iff (stored : known.Stored) :
    known.Suggests kind name best ↔
      (kind = .table ∨ kind = .field) ∧ name ≠ "" ∧ name ∉ known.names kind ∧
        suggest name (known.names kind) = some best := by
  obtain ⟨table, field⟩ := stored.exists_eq name
  by_cases empty : name = ""
  · simp [Suggests, check, empty, NameError.suggestion?]
  have gate (kind : NameKind) : ¬∃ e, checkName kind name = .error e ∧ e.suggestion? = some best := by
    rintro ⟨e, refused, found⟩
    rw [suggestion_checkName refused] at found
    cases found
  cases kind with
  | table =>
    by_cases listed : name ∈ known.tableNames <;>
      simp [Suggests, check, empty, table, listed, names, NameError.suggestion?]
  | field =>
    by_cases listed : name ∈ known.fieldNames <;>
      simp [Suggests, check, empty, field, listed, names, NameError.suggestion?]
  | outputAlias =>
    cases registered : known.aliasRegistered name <;>
      simp [Suggests, check, empty, registered, gate]
  | parameter => simp [Suggests, check, empty, gate]
  | jsonKey => simp [Suggests, check, empty, gate]

end Suggests

theorem suggestionLimit_le (bytes : Nat) : suggestionLimit bytes ≤ 3 := by
  unfold suggestionLimit
  split
  · omega
  · split <;> omega

theorem suggestionLimit_lt {bytes : Nat} (some : 0 < suggestionLimit bytes) :
    2 < bytes ∧ suggestionLimit bytes < bytes := by
  revert some
  unfold suggestionLimit
  split
  · omega
  · split <;> omega

/-- Whether the limit is less than the number of characters of a name that has a limit. -/
def KeepsCharacter (name : String) : Prop :=
  3 < name.length ∨ name.length = 3 ∧ name.utf8ByteSize ≤ 5

instance (name : String) : Decidable (KeepsCharacter name) :=
  inferInstanceAs (Decidable (_ ∨ _))

theorem keepsCharacter_iff {name : String} (some : 2 < name.utf8ByteSize) :
    KeepsCharacter name ↔ suggestionLimit name.utf8ByteSize < name.length := by
  unfold KeepsCharacter suggestionLimit
  split
  · omega
  · split <;> omega

theorem exists_absent {cs : List Char} (short : cs.length ≤ 3) : ∃ c, c ∉ cs := by
  by_contra every
  simp only [not_exists, not_not] at every
  have distinct : ['a', 'b', 'c', 'd'].Nodup := by decide
  have fits := (List.subperm_of_subset distinct fun c _ => every c).length_le
  simp only [List.length_cons, List.length_nil] at fits
  omega

/-- A name that has a limit, but not one below the number of its characters, can get a suggestion
    that shares no character with it. -/
theorem exists_foreign_suggestion {name : String} (bytes : 2 < name.utf8ByteSize)
    (short : ¬KeepsCharacter name) :
    ∃ table, table ≠ "" ∧
      ({ tables := [{ name := table }] } : Schema).catalog.Suggests .table name table ∧
      distance name table = name.length ∧ ∀ c ∈ name.toList, c ∉ table.toList := by
  have within : name.length ≤ suggestionLimit name.utf8ByteSize :=
    Nat.le_of_not_lt (mt (keepsCharacter_iff bytes).mpr short)
  have few : name.toList.length ≤ 3 := by
    rw [String.length_toList]
    exact Nat.le_trans within (suggestionLimit_le _)
  have named : name ≠ "" := by
    rintro rfl
    simp at bytes
  obtain ⟨c, absent⟩ := exists_absent few
  have full : 0 < name.toList.length := List.length_pos_iff.mpr (by simpa using named)
  let table := String.ofList (List.replicate name.toList.length c)
  have written : table.toList = List.replicate name.toList.length c := String.toList_ofList
  have apart : ∀ x ∈ name.toList, x ∉ table.toList := fun x member among =>
    absent (List.eq_of_mem_replicate (written ▸ among) ▸ member)
  have far : distance name table = name.length := by
    rw [distance, written, editDistance_replicate absent, String.length_toList]
  have member : c ∈ table.toList := by
    rw [written]
    exact List.mem_replicate.mpr ⟨Nat.ne_of_gt full, rfl⟩
  have unknown : name ∉ [table] := fun same =>
    absent ((List.mem_singleton.mp same).symm ▸ member)
  have first : FirstNearest name [table] table := ⟨[], [], rfl, by simp, by simp⟩
  have stored : ({ tables := [{ name := table }] } : Schema).catalog.Stored := .schema _
  refine ⟨table, fun empty => ?_, stored.suggests_iff.mpr ⟨.inl rfl, named, unknown, ?_⟩, far, apart⟩
  · simp [empty] at member
  · exact (suggest_eq_some_iff unknown).mpr ⟨first, far ▸ within⟩

/-- What is suggested is a known name, the first of the nearest in the order of the catalog. It is
    not farther away than three characters. The limit is set by the length of the refused name in
    bytes, so that it has more than two of them, and more than the distance. A character of it is
    kept too if it has more than three characters, or three in at most five bytes; for any other
    one a catalog may suggest a name that has none of them. -/
theorem Catalog.suggests_near {known : Catalog} (stored : known.Stored) {kind : NameKind}
    (filled : "" ∉ known.names kind) {name best : String} (suggests : known.Suggests kind name best) :
    known.check kind best = .ok () ∧ FirstNearest name (known.names kind) best ∧
      IsDistance name.toList best.toList (distance name best) ∧
      0 < distance name best ∧ distance name best ≤ 3 ∧
      2 < name.utf8ByteSize ∧ distance name best < name.utf8ByteSize ∧
      (KeepsCharacter name →
        distance name best < name.length ∧
          ∀ edits, Edit.Leads edits name.toList best.toList →
            Edit.totalCost edits = distance name best → ∃ c, .keep c ∈ edits) ∧
      (¬KeepsCharacter name → ∃ table, table ≠ "" ∧
        ({ tables := [{ name := table }] } : Schema).catalog.Suggests .table name table ∧
        distance name table = name.length ∧ ∀ c ∈ name.toList, c ∉ table.toList) := by
  obtain ⟨kinds, -, unknown, found⟩ := stored.suggests_iff.mp suggests
  obtain ⟨first, within⟩ := (suggest_eq_some_iff unknown).mp found
  have apart : name ≠ best := fun same => unknown (same ▸ first.mem)
  have positive := distance_pos apart
  have at_most := Nat.le_trans within (suggestionLimit_le _)
  obtain ⟨bytes, below⟩ := suggestionLimit_lt (Nat.lt_of_lt_of_le positive within)
  have shorter := Nat.lt_of_le_of_lt within below
  have some : best ≠ "" := fun empty => filled (empty ▸ first.mem)
  refine ⟨stored.check_ok kinds some first.mem, first, isDistance_editDistance _ _, positive, at_most,
    bytes, shorter, fun keeps => ?_, exists_foreign_suggestion bytes⟩
  have fewer : distance name best < name.length :=
    Nat.lt_of_le_of_lt within ((keepsCharacter_iff bytes).mp keeps)
  exact ⟨fewer, fun edits leads cheapest => leads.keeps (by rwa [cheapest, String.length_toList])⟩

def shop : Schema where
  tables := [{ name := "user_roles" }, { name := "users" }]

theorem shop_suggests_users :
    shop.catalog.Stored ∧ "" ∉ shop.catalog.names .table ∧
      shop.catalog.Suggests .table "usres" "users" ∧ shop.catalog.check .table "users" = .ok () ∧
      0 < distance "usres" "users" ∧ distance "usres" "users" < "usres".length := by
  have stored : shop.catalog.Stored := .schema shop
  have filled : "" ∉ shop.catalog.names .table := by
    show "" ∉ ["user_roles", "users"]
    decide
  have suggests : shop.catalog.Suggests .table "usres" "users" := ⟨_, rfl, rfl⟩
  obtain ⟨admitted, -, -, positive, -, -, -, kept, -⟩ :=
    Catalog.suggests_near stored filled suggests
  exact ⟨stored, filled, suggests, admitted, positive, (kept (by decide)).1⟩

def oneLetter : Schema where
  tables := [{ name := "t" }]

/-- A name of one character, which has three bytes, for which nothing of it is kept. -/
theorem oneLetter_suggests :
    oneLetter.catalog.Stored ∧ "" ∉ oneLetter.catalog.names .table ∧
      oneLetter.catalog.check .table "\u65e5" = .error (.unknownTable "\u65e5" (some "t")) ∧
      oneLetter.catalog.Suggests .table "\u65e5" "t" ∧
      distance "\u65e5" "t" = 1 ∧ "\u65e5".length = 1 := by
  refine ⟨.schema oneLetter, ?_, rfl, ⟨_, rfl, rfl⟩, by decide, by decide⟩
  show "" ∉ ["t"]
  decide

end TypedSql
