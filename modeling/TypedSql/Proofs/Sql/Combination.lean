import Mathlib.Data.List.Pairwise
import Mathlib.Data.Multiset.Dedup
import Mathlib.Data.Multiset.UnionInter
import TypedSql.Dialect.Basic
import TypedSql.Tree.Operator

namespace TypedSql

def SetOperation.isIntersection : SetOperation → Bool
  | .intersect | .intersectAll => true
  | _ => false

/-- The rows of a set operation, each as often as it occurs. Without ALL none occurs twice. -/
def SetOperation.apply {Row : Type} [DecidableEq Row] (op : SetOperation)
    (left right : Multiset Row) : Multiset Row :=
  match op with
  | .union => (left + right).dedup
  | .unionAll => left + right
  | .intersect => (left ∩ right).dedup
  | .intersectAll => left ∩ right
  | .except => (left.filter (· ∉ right)).dedup
  | .exceptAll => left - right

/-- Operands with a set operation between each two. -/
structure Combination (α : Type) where
  first : α
  rest : List (SetOperation × α)
  deriving DecidableEq

namespace Combination
variable {α β : Type}

def operations (x : Combination α) : List SetOperation := x.rest.map Prod.fst

def operands (x : Combination α) : List α := x.first :: x.rest.map Prod.snd

/-- The same operations on other operands, which are given by their places. -/
def fill (x : Combination α) (contents : Nat → β) : Combination β where
  first := contents 0
  rest := (x.operations.zipIdx 1).map fun next => (next.1, contents next.2)

section Rows
variable {Row : Type} [DecidableEq Row]

def total (x : Combination (Multiset Row)) : Multiset Row :=
  x.rest.foldl (fun rows next => next.1.apply rows next.2) x.first

/-- What is left of a combination when the operations that bind tighter are done. -/
def contract (tight : SetOperation → Bool) (first : Multiset Row) :
    List (SetOperation × Multiset Row) → Combination (Multiset Row)
  | [] => ⟨first, []⟩
  | (op, rows) :: rest =>
    if tight op then contract tight (op.apply first rows) rest
    else
      let after := contract tight rows rest
      ⟨first, (op, after.first) :: after.rest⟩

end Rows
end Combination

/-- SQLite binds all set operations alike, the others bind intersections tighter. -/
def Dialect.bindsTighter : Dialect → SetOperation → Bool
  | .sqlite, _ => false
  | _, op => op.isIntersection

/-- The rows that a combination stands for. -/
def Dialect.denote {Row : Type} [DecidableEq Row] (d : Dialect)
    (x : Combination (Multiset Row)) : Multiset Row :=
  (Combination.contract d.bindsTighter x.first x.rest).total

/-- That two combinations, each read in its own dialect, stand for the same rows whatever their
    operands hold. -/
def Combination.Agree {α : Type} (d e : Dialect) (x y : Combination α) : Prop :=
  ∀ (Row : Type) [DecidableEq Row] (contents : Nat → Multiset Row),
    d.denote (x.fill contents) = e.denote (y.fill contents)

/-- That no intersection comes after another operation. -/
def IntersectsFirst (operations : List SetOperation) : Prop :=
  operations.Pairwise fun before after =>
    after.isIntersection = true → before.isIntersection = true

instance (operations : List SetOperation) : Decidable (IntersectsFirst operations) :=
  inferInstanceAs (Decidable (operations.Pairwise _))

section Contraction
variable {Row : Type} [DecidableEq Row] {tight : SetOperation → Bool} {first : Multiset Row}
  {front rest : List (SetOperation × Multiset Row)}

namespace Combination

theorem total_append :
    total ⟨first, front ++ rest⟩ = total ⟨total ⟨first, front⟩, rest⟩ := by
  simp only [total, List.foldl_append]

theorem total_cons {next : SetOperation × Multiset Row} :
    total ⟨first, next :: rest⟩ = total ⟨next.1.apply first next.2, rest⟩ := rfl

theorem contract_of_loose (loose : ∀ next ∈ rest, tight next.1 = false) :
    contract tight first rest = ⟨first, rest⟩ := by
  induction rest generalizing first with
  | nil => rfl
  | cons next rest ih =>
    obtain ⟨op, rows⟩ := next
    obtain ⟨here, others⟩ := List.forall_mem_cons.mp loose
    rw [contract, if_neg (by simp [here]), ih others]

theorem contract_append_of_tight (tightly : ∀ next ∈ front, tight next.1 = true) :
    contract tight first (front ++ rest) = contract tight (total ⟨first, front⟩) rest := by
  induction front generalizing first with
  | nil => rfl
  | cons next front ih =>
    obtain ⟨op, rows⟩ := next
    obtain ⟨here, others⟩ := List.forall_mem_cons.mp tightly
    rw [List.cons_append, contract, if_pos here, ih others]
    rfl

end Combination

theorem Dialect.denote_sqlite (x : Combination (Multiset Row)) :
    Dialect.sqlite.denote x = x.total := by
  rw [denote, Combination.contract_of_loose fun _ _ => rfl]

theorem Dialect.denote_of_ne {d : Dialect} (other : d ≠ .sqlite)
    (x : Combination (Multiset Row)) :
    d.denote x = (Combination.contract SetOperation.isIntersection x.first x.rest).total := by
  have binds : d.bindsTighter = SetOperation.isIntersection := by
    funext op
    cases d with
    | sqlite => exact absurd rfl other
    | _ => rfl
  rw [denote, binds]

end Contraction

section Order
variable {op : SetOperation} {operations : List SetOperation}

theorem intersectsFirst_cons :
    IntersectsFirst (op :: operations) ↔
      (op.isIntersection = false → ∀ after ∈ operations, after.isIntersection = false) ∧
        IntersectsFirst operations := by
  unfold IntersectsFirst
  rw [List.pairwise_cons]
  cases op.isIntersection <;> simp

theorem exists_interleaved (mixed : ¬ IntersectsFirst operations) :
    ∃ front op back, operations = front ++ op :: back ∧
      (∀ before ∈ front, before.isIntersection = true) ∧ op.isIntersection = false ∧
        ∃ after ∈ back, after.isIntersection = true := by
  induction operations with
  | nil => exact absurd List.Pairwise.nil mixed
  | cons op operations ih =>
    rw [intersectsFirst_cons] at mixed
    cases kind : op.isIntersection with
    | true =>
      obtain ⟨front, next, back, rfl, intersections, loose, later⟩ :=
        ih fun sorted => mixed ⟨by simp [kind], sorted⟩
      exact ⟨op :: front, next, back, rfl,
        List.forall_mem_cons.mpr ⟨kind, intersections⟩, loose, later⟩
    | false =>
      refine ⟨[], op, operations, rfl, by simp, kind, ?_⟩
      by_contra none
      have others : ∀ after ∈ operations, after.isIntersection = false := by simpa using none
      have sorted : IntersectsFirst operations :=
        List.pairwise_of_forall_mem_list fun _ _ after inside met => by
          rw [others after inside] at met
          cases met
      exact mixed ⟨fun _ => others, sorted⟩

end Order

section Agreement
variable {Row : Type} [DecidableEq Row] {op : SetOperation} {first : Multiset Row}
  {rest : List (SetOperation × Multiset Row)}

theorem Combination.total_contract
    (sorted : IntersectsFirst (rest.map Prod.fst)) :
    (contract SetOperation.isIntersection first rest).total = total ⟨first, rest⟩ := by
  induction rest generalizing first with
  | nil => rfl
  | cons next rest ih =>
    obtain ⟨op, rows⟩ := next
    obtain ⟨here, others⟩ := intersectsFirst_cons.mp sorted
    cases kind : op.isIntersection with
    | true =>
      rw [contract, if_pos kind, ih others]
      rfl
    | false =>
      have loose : ∀ next ∈ rest, next.1.isIntersection = false := fun next member =>
        here kind next.1 (List.mem_map_of_mem member)
      rw [contract, if_neg (by simp [kind]), contract_of_loose loose]

@[simp] theorem SetOperation.apply_zero_zero : op.apply (0 : Multiset Row) 0 = 0 := by
  cases op <;> simp [apply]

theorem SetOperation.apply_zero_of_intersection (kind : op.isIntersection = true) :
    op.apply first 0 = 0 := by
  cases op <;> simp_all [apply, isIntersection]

theorem SetOperation.apply_zero_of_loose (kind : op.isIntersection = false)
    (distinct : first.Nodup) : op.apply first 0 = first := by
  have dedup := distinct.dedup
  cases op <;> simp_all [apply, isIntersection]

theorem SetOperation.apply_self_of_intersection (kind : op.isIntersection = true)
    (distinct : first.Nodup) : op.apply first first = first := by
  have dedup := distinct.dedup
  have both : first ∩ first = first := inf_idem first
  cases op <;> simp_all [apply, isIntersection]

namespace Combination

theorem total_of_kept (kept : ∀ next ∈ rest, next.1.apply first next.2 = first) :
    total ⟨first, rest⟩ = first := by
  induction rest with
  | nil => rfl
  | cons next rest ih =>
    obtain ⟨here, others⟩ := List.forall_mem_cons.mp kept
    rw [total_cons, here, ih others]

theorem total_of_intersection (empty : ∀ next ∈ rest, next.2 = 0)
    (met : ∃ next ∈ rest, next.1.isIntersection = true) : total ⟨first, rest⟩ = 0 := by
  obtain ⟨⟨op, rows⟩, member, kind⟩ := met
  obtain ⟨before, after, rfl⟩ := List.append_of_mem member
  obtain ⟨rfl, others⟩ := List.forall_mem_cons.mp (List.forall_mem_append.mp empty).2
  rw [total_append, total_cons, SetOperation.apply_zero_of_intersection kind]
  refine total_of_kept fun next inside => ?_
  rw [others next inside, SetOperation.apply_zero_zero]

theorem contract_of_empty (empty : ∀ next ∈ rest, next.2 = 0) :
    ∃ more : List (SetOperation × Multiset Row),
      contract SetOperation.isIntersection 0 rest = ⟨0, more⟩ ∧
        (∀ next ∈ more, next.2 = 0) ∧ ∀ next ∈ more, next.1.isIntersection = false := by
  induction rest with
  | nil => exact ⟨[], rfl, by simp, by simp⟩
  | cons next rest ih =>
    obtain ⟨op, rows⟩ := next
    obtain ⟨rfl, others⟩ := List.forall_mem_cons.mp empty
    obtain ⟨more, contracted, zeros, loose⟩ := ih others
    cases kind : op.isIntersection with
    | true =>
      refine ⟨more, ?_, zeros, loose⟩
      rw [contract, if_pos kind, SetOperation.apply_zero_zero, contracted]
    | false =>
      refine ⟨(op, 0) :: more, ?_, List.forall_mem_cons.mpr ⟨rfl, zeros⟩,
        List.forall_mem_cons.mpr ⟨kind, loose⟩⟩
      rw [contract, if_neg (by simp [kind]), contracted]

/-- One row in the operands up to the first union or exception, and none in the others: the row
    is left where intersections bind tighter, and lost where they do not. -/
theorem denote_ne_of_interleaved {d : Dialect} (other : d ≠ .sqlite)
    {front back : List (SetOperation × Multiset Unit)} {op : SetOperation}
    (alike : ∀ next ∈ front, next.2 = {()})
    (intersections : ∀ next ∈ front, next.1.isIntersection = true)
    (loose : op.isIntersection = false) (empty : ∀ next ∈ back, next.2 = 0)
    (met : ∃ next ∈ back, next.1.isIntersection = true) :
    d.denote ⟨{()}, front ++ (op, 0) :: back⟩ ≠
      Dialect.sqlite.denote ⟨{()}, front ++ (op, 0) :: back⟩ := by
  have distinct : ({()} : Multiset Unit).Nodup := Multiset.nodup_singleton ()
  have kept : total ⟨{()}, front⟩ = {()} := by
    refine total_of_kept fun next member => ?_
    rw [alike next member]
    exact SetOperation.apply_self_of_intersection (intersections next member) distinct
  have flat : total ⟨{()}, front ++ (op, 0) :: back⟩ = 0 := by
    obtain ⟨next, member, kind⟩ := met
    rw [total_append]
    exact total_of_intersection (List.forall_mem_cons.mpr ⟨rfl, empty⟩)
      ⟨next, List.mem_cons_of_mem _ member, kind⟩
  obtain ⟨more, contracted, zeros, kinds⟩ := contract_of_empty empty
  have grouped : (contract SetOperation.isIntersection {()} (front ++ (op, 0) :: back)).total =
      {()} := by
    rw [contract_append_of_tight intersections, kept, contract, if_neg (by simp [loose]),
      contracted, total_cons, SetOperation.apply_zero_of_loose loose distinct]
    refine total_of_kept fun next member => ?_
    rw [zeros next member]
    exact SetOperation.apply_zero_of_loose (kinds next member) distinct
  rw [Dialect.denote_of_ne other, Dialect.denote_sqlite, flat, grouped]
  simp

end Combination
end Agreement

namespace Combination
variable {α : Type} {d e : Dialect} {x y : Combination α}

theorem fill_eq {β : Type} (same : x.operations = y.operations) (contents : Nat → β) :
    x.fill contents = y.fill contents := by
  rw [fill, fill, same]

@[simp] theorem operations_fill {β : Type} (contents : Nat → β) :
    (x.fill contents).operations = x.operations := by
  simp [fill, operations, Function.comp_def, List.zipIdx_map_fst]

theorem Agree.symm (agree : x.Agree d e y) : y.Agree e d x :=
  fun Row _ contents => (agree Row contents).symm

theorem agree_of_sorted (sorted : IntersectsFirst x.operations) : x.Agree d .sqlite x := by
  intro Row _ contents
  by_cases same : d = .sqlite
  · rw [same]
  · have filled : IntersectsFirst ((x.fill contents).rest.map Prod.fst) := by
      rwa [← operations, operations_fill]
    rw [Dialect.denote_of_ne same, Dialect.denote_sqlite, total_contract filled]

theorem sorted_of_agree (other : d ≠ .sqlite) (agree : x.Agree d .sqlite x) :
    IntersectsFirst x.operations := by
  by_contra mixed
  obtain ⟨front, op, back, split, intersections, loose, after, member, kind⟩ :=
    exists_interleaved mixed
  let contents (place : Nat) : Multiset Unit := if place ≤ front.length then {()} else 0
  have filled : x.fill contents =
      ⟨{()}, (front.zipIdx 1).map (fun next => (next.1, contents next.2)) ++
        (op, 0) :: (back.zipIdx (1 + front.length + 1)).map
          fun next => (next.1, contents next.2)⟩ := by
    simp [fill, split, contents, List.zipIdx_append, List.zipIdx_cons]
  have agreed := agree Unit contents
  rw [filled] at agreed
  refine denote_ne_of_interleaved other ?_ ?_ loose ?_ ?_ agreed
  · simp only [List.forall_mem_map]
    rintro ⟨before, place⟩ inside
    have bounds := List.snd_lt_of_mem_zipIdx inside
    exact if_pos (by omega)
  · simp only [List.forall_mem_map]
    rintro ⟨before, place⟩ inside
    exact intersections before (List.fst_mem_of_mem_zipIdx inside)
  · simp only [List.forall_mem_map]
    rintro ⟨before, place⟩ inside
    have bounds := List.le_snd_of_mem_zipIdx inside
    exact if_neg (by omega)
  · rw [← List.zipIdx_map_fst (1 + front.length + 1) back] at member
    obtain ⟨next, inside, rfl⟩ := List.mem_map.mp member
    exact ⟨_, List.mem_map_of_mem inside, kind⟩

/-- Two combinations with the same operations agree exactly if their dialects bind alike or no
    intersection comes after another operation. -/
theorem agree_iff (same : x.operations = y.operations) :
    x.Agree d e y ↔ (d = .sqlite ↔ e = .sqlite) ∨ IntersectsFirst x.operations := by
  have alike : x.Agree d e y ↔ x.Agree d e x := by
    simp only [Agree, fill_eq same]
  rw [alike]
  by_cases left : d = .sqlite
  · by_cases right : e = .sqlite
    · simp [Agree, left, right]
    · rw [left]
      simpa [right] using ⟨fun agree => sorted_of_agree right agree.symm,
        fun sorted => (agree_of_sorted sorted).symm⟩
  · by_cases right : e = .sqlite
    · rw [right]
      simpa [left] using ⟨sorted_of_agree left, agree_of_sorted⟩
    · simp [Agree, left, right, Dialect.denote_of_ne]

end Combination

end TypedSql
