import TypedSql.NameMap

namespace TypedSql.NameMap
variable {α : Type}

theorem mem_insertAll {entries : List (String × α)} {m : NameMap α} {e : String × α}
    (member : e ∈ (entries.foldl (fun m e => m.insert e.1 e.2) m).entries) :
    e ∈ m.entries ∨ e ∈ entries := by
  induction entries generalizing m with
  | nil => exact .inl member
  | cons first rest ih =>
    rcases ih member with before | after
    · rcases NameMap.mem_insertEntry before with rfl | before
      · exact .inr List.mem_cons_self
      · exact .inl before
    · exact .inr (List.mem_cons_of_mem _ after)

theorem mem_ofList {entries : List (String × α)} {e : String × α}
    (member : e ∈ (ofList entries).entries) : e ∈ entries := by
  rcases mem_insertAll member with before | inside
  · cases before
  · exact inside

theorem insertEntry_of_ascending {name : String} {value : α} {entries : List (String × α)}
    (above : ∀ e ∈ entries, e.1 < name) :
    insertEntry name value entries = entries ++ [(name, value)] := by
  induction entries with
  | nil => rfl
  | cons entry rest ih =>
    obtain ⟨first, others⟩ := List.forall_mem_cons.mp above
    have after : ¬name < entry.1 := fun before => String.lt_irrefl _ (String.lt_trans before first)
    have different : name ≠ entry.1 := fun same => String.lt_irrefl _ (same ▸ first)
    rw [insertEntry, if_neg after, if_neg different, ih others, List.cons_append]

theorem entries_insertAll (entries : List (String × α)) (m : NameMap α)
    (ascending : (m.entries ++ entries).Pairwise fun a b => a.1 < b.1) :
    (entries.foldl (fun m e => m.insert e.1 e.2) m).entries = m.entries ++ entries := by
  induction entries generalizing m with
  | nil => rw [List.foldl_nil, List.append_nil]
  | cons e rest ih =>
    have above : ∀ x ∈ m.entries, x.1 < e.1 := fun x member =>
      (List.pairwise_append.mp ascending).2.2 x member e List.mem_cons_self
    have inserted : (m.insert e.1 e.2).entries = m.entries ++ [e] := insertEntry_of_ascending above
    have moved : m.entries ++ e :: rest = m.entries ++ [e] ++ rest := by simp
    rw [List.foldl_cons, ih, inserted, ← moved]
    rwa [inserted, ← moved]

theorem eq_of_entries {m m' : NameMap α} (same : m.entries = m'.entries) : m = m' := by
  cases m
  cases m'
  cases same
  rfl

theorem ofList_entries (m : NameMap α) : ofList m.entries = m :=
  eq_of_entries (entries_insertAll m.entries empty m.ascending)

section Contents
variable {m : NameMap α} {name n : String} {value : α} {e : String × α}

theorem mem_insertEntry_iff {entries : List (String × α)}
    (ascending : entries.Pairwise fun a b => a.1 < b.1) :
    e ∈ insertEntry name value entries ↔ e = (name, value) ∨ e ∈ entries ∧ e.1 ≠ name := by
  induction entries with
  | nil => simp [insertEntry]
  | cons entry rest ih =>
    obtain ⟨above, ascending⟩ := List.pairwise_cons.mp ascending
    simp only [insertEntry]
    split
    · rename_i before
      have other : ∀ x ∈ entry :: rest, x.1 ≠ name := by
        intro x member same
        rcases List.mem_cons.mp member with rfl | member
        · exact String.lt_irrefl _ (same ▸ before)
        · exact String.lt_irrefl _ (String.lt_trans (same ▸ before) (above x member))
      simp only [List.mem_cons] at other ⊢
      exact or_congr_right ⟨fun member => ⟨member, other e member⟩, And.left⟩
    · split
      · rename_i same
        have other : ∀ x ∈ rest, x.1 ≠ name := fun x member equal =>
          String.lt_irrefl _ ((equal.trans same) ▸ above x member)
        simp only [List.mem_cons]
        refine or_congr_right ⟨fun member => ⟨.inr member, other e member⟩, ?_⟩
        rintro ⟨rfl | member, different⟩
        · exact absurd same.symm different
        · exact member
      · rename_i different
        simp only [List.mem_cons, ih ascending]
        constructor
        · rintro (rfl | new | ⟨member, other⟩)
          · exact .inr ⟨.inl rfl, Ne.symm different⟩
          · exact .inl new
          · exact .inr ⟨.inr member, other⟩
        · rintro (new | ⟨rfl | member, other⟩)
          · exact .inr (.inl new)
          · exact .inl rfl
          · exact .inr (.inr ⟨member, other⟩)

theorem mem_insert_iff :
    e ∈ (m.insert name value).entries ↔ e = (name, value) ∨ e ∈ m.entries ∧ e.1 ≠ name :=
  mem_insertEntry_iff m.ascending

theorem get?_eq_some_iff : m.get? name = some value ↔ (name, value) ∈ m.entries := by
  obtain ⟨entries, ascending⟩ := m
  simp only [get?]
  induction entries with
  | nil => simp
  | cons entry rest ih =>
    obtain ⟨above, ascending⟩ := List.pairwise_cons.mp ascending
    by_cases same : entry.1 = name
    · have other : (name, value) ∉ rest := fun member => String.lt_irrefl _ (same ▸ above _ member)
      obtain ⟨first, held⟩ := entry
      obtain rfl : first = name := same
      simp [other, eq_comm]
    · have distinct : (name, value) ≠ entry := fun equal => same (equal ▸ rfl)
      simpa [same, distinct] using ih ascending

theorem contains_iff : m.contains n = true ↔ n ∈ m.names := by
  simp [contains, names]

theorem mem_names_insert : n ∈ (m.insert name value).names ↔ n = name ∨ n ∈ m.names := by
  simp only [names, List.mem_map, mem_insert_iff]
  constructor
  · rintro ⟨e, rfl | ⟨member, -⟩, rfl⟩
    · exact .inl rfl
    · exact .inr ⟨e, member, rfl⟩
  · rintro (rfl | ⟨e, member, rfl⟩)
    · exact ⟨_, .inl rfl, rfl⟩
    · by_cases same : e.1 = name
      · exact ⟨_, .inl rfl, same.symm⟩
      · exact ⟨e, .inr ⟨member, same⟩, rfl⟩

theorem names_ascending (m : NameMap α) : m.names.Pairwise (· < ·) :=
  List.pairwise_map.mpr m.ascending

end Contents

theorem names_ext {β : Type} {m : NameMap α} {m' : NameMap β}
    (same : ∀ n, n ∈ m.names ↔ n ∈ m'.names) : m.names = m'.names := by
  have distinct {γ : Type} (m : NameMap γ) : m.names.Nodup :=
    m.names_ascending.imp fun {a b} (before : a < b) (equal : a = b) =>
      String.lt_irrefl _ (equal ▸ before)
  have permuted := (List.perm_ext_iff_of_nodup (distinct m) (distinct m')).mpr same
  exact permuted.eq_of_pairwise (fun a b _ _ first second =>
    absurd (String.lt_trans first second) (String.lt_irrefl a)) m.names_ascending m'.names_ascending

theorem ext_of_mem {m m' : NameMap α} (same : ∀ e, e ∈ m.entries ↔ e ∈ m'.entries) : m = m' := by
  have distinct (m : NameMap α) : m.entries.Nodup := by
    apply m.ascending.imp
    rintro a b before rfl
    exact String.lt_irrefl _ before
  have permuted := (List.perm_ext_iff_of_nodup (distinct m) (distinct m')).mpr same
  apply eq_of_entries
  apply permuted.eq_of_pairwise _ m.ascending m'.ascending
  intro a b _ _ before after
  exact absurd (String.lt_trans before after) (String.lt_irrefl _)

section Distinct
variable {entries : List (String × α)} (distinct : (entries.map Prod.fst).Nodup)
include distinct

theorem mem_insertAll_iff {m : NameMap α} {e : String × α} :
    e ∈ (entries.foldl (fun m e => m.insert e.1 e.2) m).entries ↔
      e ∈ entries ∨ e ∈ m.entries ∧ e.1 ∉ entries.map Prod.fst := by
  induction entries generalizing m with
  | nil => simp
  | cons first rest ih =>
    obtain ⟨fresh, distinct⟩ := List.nodup_cons.mp distinct
    rw [List.foldl_cons, ih distinct, mem_insert_iff]
    simp only [List.map_cons, List.mem_cons, not_or]
    constructor
    · rintro (inside | ⟨rfl | ⟨member, other⟩, absent⟩)
      · exact .inl (.inr inside)
      · exact .inl (.inl rfl)
      · exact .inr ⟨member, other, absent⟩
    · rintro ((rfl | inside) | ⟨member, other, absent⟩)
      · exact .inr ⟨.inl rfl, fresh⟩
      · exact .inl inside
      · exact .inr ⟨.inr ⟨member, other⟩, absent⟩

theorem mem_ofList_iff {e : String × α} : e ∈ (ofList entries).entries ↔ e ∈ entries := by
  rw [ofList, mem_insertAll_iff distinct]
  simp [empty]

theorem ofList_perm {others : List (String × α)} (permuted : entries.Perm others) :
    ofList others = ofList entries := by
  apply ext_of_mem
  intro e
  rw [mem_ofList_iff distinct, mem_ofList_iff ((permuted.map _).nodup_iff.mp distinct),
    permuted.mem_iff]

end Distinct

end TypedSql.NameMap

namespace TypedSql.NameSet

theorem mem_names_addAll {s : NameSet} {names : List String} {n : String} :
    n ∈ (s.addAll names).names ↔ n ∈ s.names ∨ n ∈ names := by
  induction names generalizing s with
  | nil => simp [addAll]
  | cons name rest ih =>
    rw [addAll, List.foldl_cons, ← addAll, ih, add, NameMap.mem_names_insert, List.mem_cons,
      or_assoc, or_left_comm]

theorem mem_names_ofNames {names : List String} {n : String} :
    n ∈ (ofNames names).names ↔ n ∈ names := by
  rw [ofNames, mem_names_addAll]
  exact or_iff_right (by simp [NameMap.names, NameMap.empty])

end TypedSql.NameSet
