import Mathlib.Data.List.Basic
import Mathlib.Order.Bounds.Basic
import TypedSql.Text.EditDistance

namespace TypedSql

/-- A step of the way from one text to another, from left to right. -/
inductive Edit where
  | keep (c : Char)
  | replace (old new : Char)
  | insert (c : Char)
  | delete (c : Char)
  deriving DecidableEq

namespace Edit

def source : Edit → List Char
  | keep c | replace c _ | delete c => [c]
  | insert _ => []

def target : Edit → List Char
  | keep c | replace _ c | insert c => [c]
  | delete _ => []

def cost : Edit → Nat
  | keep _ => 0
  | _ => 1

def isKept : Edit → Bool
  | keep _ => true
  | _ => false

/-- That the steps lead from one text to the other. -/
def Leads (edits : List Edit) (s t : List Char) : Prop :=
  edits.flatMap source = s ∧ edits.flatMap target = t

def totalCost : List Edit → Nat
  | [] => 0
  | e :: rest => e.cost + totalCost rest

end Edit

def editCosts (s t : List Char) : Set Nat :=
  {n | ∃ edits, Edit.Leads edits s t ∧ Edit.totalCost edits = n}

def IsDistance (s t : List Char) (n : Nat) : Prop := IsLeast (editCosts s t) n

section Scripts
variable {s t : List Char} {n : Nat} {edits : List Edit} {c d : Char}

@[simp] theorem Edit.totalCost_concat (e : Edit) :
    totalCost (edits ++ [e]) = totalCost edits + e.cost := by
  induction edits with
  | nil => simp [totalCost]
  | cons first rest ih => simp only [List.cons_append, totalCost, ih, Nat.add_assoc]

theorem Edit.totalCost_map {f : Char → Edit} (paid : ∀ x, (f x).cost = 1) (cs : List Char) :
    totalCost (cs.map f) = cs.length := by
  induction cs with
  | nil => rfl
  | cons x rest ih => rw [List.map_cons, totalCost, paid, ih, List.length_cons, Nat.add_comm]

theorem Edit.Leads.concat (leads : Leads edits s t) (e : Edit) :
    Leads (edits ++ [e]) (s ++ e.source) (t ++ e.target) := by
  obtain ⟨rfl, rfl⟩ := leads
  simp [Leads]

theorem Edit.Leads.lengths (leads : Leads edits s t) :
    s.length ≤ edits.countP isKept + totalCost edits ∧ s.length ≤ t.length + totalCost edits ∧
      t.length ≤ s.length + totalCost edits := by
  obtain ⟨rfl, rfl⟩ := leads
  induction edits with
  | nil => simp
  | cons e rest ih =>
    obtain ⟨keeps, read, written⟩ := ih
    cases e <;>
      simp only [List.flatMap_cons, List.length_append, List.countP_cons, totalCost, source, target,
        isKept, cost, List.length_cons, List.length_nil, ↓reduceIte, Bool.false_eq_true]
        at keeps read written ⊢ <;>
      omega

theorem Edit.Leads.keeps (leads : Leads edits s t) (cheap : totalCost edits < s.length) :
    ∃ x, keep x ∈ edits := by
  have some : 0 < edits.countP isKept := by
    have := leads.lengths.1
    omega
  obtain ⟨e, inside, is_kept⟩ := List.countP_pos_iff.mp some
  cases e with
  | keep x => exact ⟨x, inside⟩
  | _ => cases is_kept

theorem Edit.Leads.mem_of_kept (leads : Leads edits s t) (kept : keep c ∈ edits) :
    c ∈ s ∧ c ∈ t := by
  obtain ⟨rfl, rfl⟩ := leads
  exact ⟨List.mem_flatMap_of_mem kept (List.mem_singleton_self c),
    List.mem_flatMap_of_mem kept (List.mem_singleton_self c)⟩

theorem Edit.Leads.eq_of_free (leads : Leads edits s t) (free : totalCost edits = 0) : s = t := by
  obtain ⟨rfl, rfl⟩ := leads
  induction edits with
  | nil => rfl
  | cons e rest ih =>
    rw [totalCost, Nat.add_eq_zero_iff] at free
    cases e with
    | keep x => rw [List.flatMap_cons, List.flatMap_cons, ih free.2]; rfl
    | _ => exact absurd free.1 Nat.one_ne_zero

theorem Edit.Leads.concat_mem (leads : Leads edits s t) (e : Edit) :
    totalCost edits + e.cost ∈ editCosts (s ++ e.source) (t ++ e.target) :=
  ⟨edits ++ [e], leads.concat e, totalCost_concat e⟩

theorem Edit.Leads.last (leads : Leads edits (s ++ [c]) (t ++ [d])) :
    ∃ earlier, (Leads earlier s t ∧ totalCost earlier + (if c = d then 0 else 1) ≤ totalCost edits) ∨
      (Leads earlier (s ++ [c]) t ∧ totalCost earlier + 1 = totalCost edits) ∨
      (Leads earlier s (t ++ [d]) ∧ totalCost earlier + 1 = totalCost edits) := by
  rcases edits.eq_nil_or_concat' with rfl | ⟨earlier, e, rfl⟩
  · simp [Leads] at leads
  · obtain ⟨read, written⟩ := leads
    rw [List.flatMap_append, List.flatMap_singleton] at read written
    refine ⟨earlier, ?_⟩
    cases e with
    | keep x =>
      obtain ⟨reads, ends⟩ := List.append_inj' read rfl
      obtain ⟨writes, ends'⟩ := List.append_inj' written rfl
      obtain rfl : x = c := List.singleton_inj.mp ends
      obtain rfl : x = d := List.singleton_inj.mp ends'
      exact .inl ⟨⟨reads, writes⟩, by simp⟩
    | replace old new =>
      have free : (if c = d then 0 else 1) ≤ (replace old new).cost := by
        split <;> simp [cost]
      exact .inl ⟨⟨(List.append_inj' read rfl).1, (List.append_inj' written rfl).1⟩, by
        rw [totalCost_concat]; omega⟩
    | insert x =>
      rw [show (insert x).source = [] from rfl, List.append_nil] at read
      exact .inr (.inl ⟨⟨read, (List.append_inj' written rfl).1⟩,
        (totalCost_concat (insert x)).symm⟩)
    | delete x =>
      rw [show (delete x).target = [] from rfl, List.append_nil] at written
      exact .inr (.inr ⟨⟨(List.append_inj' read rfl).1, written⟩,
        (totalCost_concat (delete x)).symm⟩)

end Scripts

section Least
variable {s t : List Char} {c d : Char} {left up diagonal : Nat}

theorem isDistance_nil_left (t : List Char) : IsDistance [] t t.length := by
  refine ⟨⟨t.map .insert, ⟨?_, ?_⟩, ?_⟩, ?_⟩
  · simp [List.flatMap_map, Edit.source]
  · simp [List.flatMap_map, Edit.target]
  · exact Edit.totalCost_map (fun _ => rfl) _
  · rintro n ⟨edits, leads, rfl⟩
    simpa using leads.lengths.2.2

theorem isDistance_nil_right (s : List Char) : IsDistance s [] s.length := by
  refine ⟨⟨s.map .delete, ⟨?_, ?_⟩, ?_⟩, ?_⟩
  · simp [List.flatMap_map, Edit.source]
  · simp [List.flatMap_map, Edit.target]
  · exact Edit.totalCost_map (fun _ => rfl) _
  · rintro n ⟨edits, leads, rfl⟩
    simpa using leads.lengths.2.1

theorem IsDistance.concat (before : IsDistance (s ++ [c]) t left) (above : IsDistance s (t ++ [d]) up)
    (both : IsDistance s t diagonal) :
    IsDistance (s ++ [c]) (t ++ [d])
      (min (min (left + 1) (up + 1)) (diagonal + if c = d then 0 else 1)) := by
  constructor
  · obtain ⟨first, first_leads, rfl⟩ := before.1
    obtain ⟨second, second_leads, rfl⟩ := above.1
    obtain ⟨third, third_leads, rfl⟩ := both.1
    have inserted : Edit.totalCost first + 1 ∈ editCosts (s ++ [c]) (t ++ [d]) := by
      simpa [Edit.source, Edit.target, Edit.cost] using first_leads.concat_mem (.insert d)
    have deleted : Edit.totalCost second + 1 ∈ editCosts (s ++ [c]) (t ++ [d]) := by
      simpa [Edit.source, Edit.target, Edit.cost] using second_leads.concat_mem (.delete c)
    have matched : Edit.totalCost third + (if c = d then 0 else 1) ∈
        editCosts (s ++ [c]) (t ++ [d]) := by
      split
      · rename_i same
        exact same ▸ third_leads.concat_mem (.keep c)
      · exact third_leads.concat_mem (.replace c d)
    exact min_rec' (· ∈ _) (min_rec' (· ∈ _) inserted deleted) matched
  · rintro n ⟨edits, leads, rfl⟩
    obtain ⟨earlier, ⟨leads, least⟩ | ⟨leads, same⟩ | ⟨leads, same⟩⟩ := leads.last
    · have := both.2 ⟨earlier, leads, rfl⟩
      omega
    · have := before.2 ⟨earlier, leads, rfl⟩
      omega
    · have := above.2 ⟨earlier, leads, rfl⟩
      omega

end Least

/-- That a row has the distances of `s` to `t` with each beginning of `target` behind it, but for
    the empty one. -/
def DistanceCells (s : List Char) : List Char → List Char → List Nat → Prop
  | _, [], [] => True
  | t, d :: target, up :: above => IsDistance s (t ++ [d]) up ∧ DistanceCells s (t ++ [d]) target above
  | _, _, _ => False

/-- The row of all distances of `s` to the beginnings of `target`. -/
def DistanceRow (s target : List Char) : List Nat → Prop
  | [] => False
  | first :: above => IsDistance s [] first ∧ DistanceCells s [] target above

section Rows
variable {s t target : List Char} {c : Char} {left diagonal first : Nat} {above row : List Nat}

theorem cells_range (t target : List Char) :
    DistanceCells [] t target (List.range' (t.length + 1) target.length) := by
  induction target generalizing t with
  | nil => trivial
  | cons d target ih =>
    have next := ih (t ++ [d])
    have cell := isDistance_nil_left (t ++ [d])
    rw [List.length_append, List.length_singleton] at next cell
    exact ⟨cell, next⟩

theorem DistanceCells.next (cells : DistanceCells s t target above) (before : IsDistance (s ++ [c]) t left)
    (both : IsDistance s t diagonal) :
    DistanceCells (s ++ [c]) t target (distanceCells c left diagonal target above) := by
  induction target generalizing t left diagonal above with
  | nil =>
    cases above with
    | nil => trivial
    | cons => exact cells.elim
  | cons d target ih =>
    cases above with
    | nil => exact cells.elim
    | cons up above =>
      obtain ⟨cell, more⟩ := cells
      have here := before.concat cell both
      exact ⟨here, ih more here cell⟩

theorem DistanceRow.next (filled : DistanceRow s target row) :
    DistanceRow (s ++ [c]) target (nextDistances target row c) := by
  cases row with
  | nil => exact filled.elim
  | cons first above =>
    obtain ⟨empty, cells⟩ := filled
    obtain rfl : first = s.length := empty.unique (isDistance_nil_right s)
    have longer := isDistance_nil_right (s ++ [c])
    rw [List.length_append, List.length_singleton] at longer
    exact ⟨longer, cells.next longer empty⟩

theorem DistanceRow.foldl (filled : DistanceRow s target row) (source : List Char) :
    DistanceRow (s ++ source) target (source.foldl (nextDistances target) row) := by
  induction source generalizing s row with
  | nil => rwa [List.append_nil]
  | cons c source ih =>
    have more := ih (filled.next (c := c))
    rwa [List.append_assoc, List.singleton_append] at more

theorem DistanceCells.last (cells : DistanceCells s t target above) (empty : IsDistance s t first) :
    IsDistance s (t ++ target) ((first :: above).getLastD 0) := by
  induction target generalizing t first above with
  | nil =>
    cases above with
    | nil => rwa [List.append_nil]
    | cons => exact cells.elim
  | cons d target ih =>
    cases above with
    | nil => exact cells.elim
    | cons up above =>
      obtain ⟨cell, more⟩ := cells
      have last := ih more cell
      rwa [List.append_assoc, List.singleton_append] at last

end Rows

/-- The distance of two texts is what the cheapest way from one to the other costs. -/
theorem isDistance_editDistance (source target : List Char) :
    IsDistance source target (editDistance source target) := by
  have start : DistanceRow [] target (List.range (target.length + 1)) := by
    rw [List.range_eq_range', List.range'_succ]
    exact ⟨isDistance_nil_left [], cells_range [] target⟩
  have filled := start.foldl source
  rw [List.nil_append] at filled
  unfold editDistance
  cases row : source.foldl (nextDistances target) (List.range (target.length + 1)) with
  | nil => exact (row ▸ filled : DistanceRow source target []).elim
  | cons first above =>
    obtain ⟨empty, cells⟩ := (row ▸ filled : DistanceRow source target (first :: above))
    exact cells.last empty

theorem editDistance_replicate (absent : c ∉ s) :
    editDistance s (List.replicate s.length c) = s.length := by
  refine (isDistance_editDistance _ _).unique ⟨⟨s.map (.replace · c), ⟨?_, ?_⟩, ?_⟩, ?_⟩
  · simp [List.flatMap_map, Edit.source]
  · simp [List.flatMap_map, Edit.target, ← List.map_eq_flatMap]
  · exact Edit.totalCost_map (fun _ => rfl) _
  · rintro n ⟨edits, leads, rfl⟩
    by_contra cheap
    obtain ⟨x, kept⟩ := leads.keeps (Nat.lt_of_not_le cheap)
    obtain ⟨inside, among⟩ := leads.mem_of_kept kept
    exact absent (List.eq_of_mem_replicate among ▸ inside)

theorem editDistance_eq_zero {s t : List Char} (near : editDistance s t = 0) : s = t := by
  obtain ⟨edits, leads, same⟩ := (isDistance_editDistance s t).1
  exact leads.eq_of_free (same.trans near)

end TypedSql
