import Mathlib.Data.Option.Basic
import TypedSql.Proofs.Except
import TypedSql.Render.Basic

namespace TypedSql

namespace Render
variable {α β : Type}

theorem bind_ok_iff {x : Render α} {f : α → Render β} {b : β} :
    (x >>= f).result = .ok b ↔ ∃ a, x.result = .ok a ∧ (f a).result = .ok b := by
  rw [result_bind, Except.bind_eq_ok]

@[simp] theorem lift_eq (x : Except RenderError α) :
    (liftM x : Render α) = ofExcept x := rfl

@[simp] theorem mk_ok_bind (holes : List Hole) (a : α) (f : α → Render β) :
    ((⟨holes, .ok a⟩ : Render α) >>= f) = ⟨holes ++ (f a).recorded, (f a).result⟩ := rfl

@[simp] theorem ofExcept_ok_bind (a : α) (f : α → Render β) : (ofExcept (.ok a) >>= f) = f a := by
  simp [bind, Render.bind, ofExcept]

@[simp] theorem pure_bind (a : α) (f : α → Render β) : ((pure a : Render α) >>= f) = f a := by
  simp [bind, Render.bind, pure]

@[simp] theorem fail_bind (e : RenderError) (f : α → Render β) : (fail e >>= f) = fail e := rfl

theorem pure_eq (a : α) : (pure a : Render α) = ⟨[], .ok a⟩ := rfl

theorem all_ok_iff {xs : List (Render α)} {as : List α} :
    (all xs).result = .ok as ↔ List.Forall₂ (fun x a => x.result = .ok a) xs as := by
  induction xs generalizing as with
  | nil => simp [all, eq_comm]
  | cons x rest ih =>
    simp only [all, bind_ok_iff, ih, List.forall₂_cons_left_iff, result_pure]
    constructor
    · rintro ⟨a, first, more, others, last⟩
      cases last
      exact ⟨a, more, first, others, rfl⟩
    · rintro ⟨a, more, first, others, rfl⟩
      exact ⟨a, first, more, others, rfl⟩

end Render

theorem exists_pairs {α β : Type} {R : α → β → Prop} {xs : List α} {ys : List β}
    (matching : List.Forall₂ R xs ys) :
    ∃ pairs : List (α × β), xs = pairs.map Prod.fst ∧ ys = pairs.map Prod.snd ∧
      ∀ p ∈ pairs, R p.1 p.2 := by
  induction matching with
  | nil => exact ⟨[], rfl, rfl, by simp⟩
  | @cons x y xs ys first _ ih =>
    obtain ⟨pairs, rfl, rfl, rest⟩ := ih
    exact ⟨(x, y) :: pairs, rfl, rfl, List.forall_mem_cons.mpr ⟨first, rest⟩⟩

theorem exists_pairs_of_each {α β : Type} {R : α → β → Prop} {xs : List α}
    (each : ∀ x ∈ xs, ∃ y, R x y) :
    ∃ pairs : List (α × β), xs = pairs.map Prod.fst ∧ ∀ p ∈ pairs, R p.1 p.2 := by
  induction xs with
  | nil => exact ⟨[], rfl, by simp⟩
  | cons x rest ih =>
    obtain ⟨y, first⟩ := each x List.mem_cons_self
    obtain ⟨pairs, rfl, others⟩ := ih fun z member => each z (List.mem_cons_of_mem _ member)
    exact ⟨(x, y) :: pairs, rfl, List.forall_mem_cons.mpr ⟨first, others⟩⟩

section Pairs
variable {α β : Type} {P : α → Prop}

theorem forall_fst {xs : List α} {pairs : List (α × β)} (listed : xs = pairs.map Prod.fst)
    (each : ∀ p ∈ pairs, P p.1) : ∀ x ∈ xs, P x := by
  rw [listed]
  exact List.forall_mem_map.mpr each

theorem forall_fst_option {x : Option α} {pair : Option (α × β)} (given : x = pair.map Prod.fst)
    (each : ∀ p ∈ pair, P p.1) : ∀ a ∈ x, P a := by
  rw [given]
  exact Option.forall_mem_map.mpr each

end Pairs

theorem Render.all_ok_of_each {α β : Type} {f : α → Render β} {g : α → β} {xs : List α}
    (each : ∀ x ∈ xs, (f x).result = .ok (g x)) :
    (Render.all (xs.map f)).result = .ok (xs.map g) := by
  rw [Render.all_ok_iff, List.forall₂_map_left_iff, List.forall₂_map_right_iff,
    List.forall₂_same]
  exact each

theorem Render.each_of_all_ok {α : Type} {xs : List (Render α)} {as : List α}
    (success : (Render.all xs).result = .ok as) {x : Render α} (member : x ∈ xs) :
    ∃ a, x.result = .ok a := by
  rw [Render.all_ok_iff] at success
  obtain ⟨pairs, rfl, -, each⟩ := exists_pairs success
  obtain ⟨p, inside, rfl⟩ := List.mem_map.mp member
  exact ⟨p.2, each p inside⟩

theorem Render.exists_pairs_of_each_ok {α : Type} {f : α → Render Sql} {g : α × Sql → Sql}
    {R : α → Sql → Prop}
    (each : ∀ x s, (f x).result = .ok s → ∃ part, R x part ∧ s = g (x, part))
    {xs : List α} {parts : List Sql} (success : (Render.all (xs.map f)).result = .ok parts) :
    ∃ pairs : List (α × Sql), xs = pairs.map Prod.fst ∧ parts = pairs.map g ∧
      ∀ p ∈ pairs, R p.1 p.2 := by
  rw [Render.all_ok_iff, List.forall₂_map_left_iff] at success
  induction success with
  | nil => exact ⟨[], rfl, rfl, by simp⟩
  | @cons x s _ _ first _ ih =>
    obtain ⟨pairs, rfl, rfl, rest⟩ := ih
    obtain ⟨part, related, rfl⟩ := each x s first
    exact ⟨(x, part) :: pairs, rfl, rfl, List.forall_mem_cons.mpr ⟨related, rest⟩⟩

theorem Render.exists_pairs_of_all {α : Type} {f : α → Render Sql} {xs : List α}
    {parts : List Sql} (success : (Render.all (xs.map f)).result = .ok parts) :
    ∃ pairs : List (α × Sql), xs = pairs.map Prod.fst ∧ parts = pairs.map Prod.snd ∧
      ∀ p ∈ pairs, (f p.1).result = .ok p.2 :=
  Render.exists_pairs_of_each_ok (fun _ s made => ⟨s, made, rfl⟩) success

theorem Render.all_of_pairs {α : Type} {f : α → Render Sql} {pairs : List (α × Sql)}
    (each : ∀ p ∈ pairs, f p.1 = ⟨p.2.holes, .ok p.2⟩) :
    Render.all ((pairs.map Prod.fst).map f) =
      ⟨(pairs.map Prod.snd).flatMap Sql.holes, .ok (pairs.map Prod.snd)⟩ := by
  induction pairs with
  | nil => rfl
  | cons p rest ih =>
    have others := ih fun q member => each q (List.mem_cons_of_mem _ member)
    simp only [List.map_cons, Render.all, each p List.mem_cons_self, others, Render.mk_ok_bind,
      Render.pure_eq, List.flatMap_cons, List.append_nil]

def Context.HasPlaceholders (c : Context) : Prop :=
  c.style = .numbered → c.dialect.supports .numberedPlaceholders = true

def Context.placeholder (c : Context) (p : Param) : Sql := [.hole ⟨c.depth, p⟩]

theorem Context.param_ok_iff {c : Context} {p : Param} {s : Sql} :
    (c.param p).result = .ok s ↔ c.HasPlaceholders ∧ c.placeholder p = s := by
  simp only [Context.param, Context.HasPlaceholders, Context.placeholder, Dialect.require]
  cases c.style
  · simp
  · by_cases supported : c.dialect.supports .numberedPlaceholders = true <;>
      simp [supported, Except.map]

theorem Dialect.require_ok_iff {d : Dialect} {feature : Feature} {u : Unit} :
    d.require feature = .ok u ↔ d.supports feature = true := by
  unfold Dialect.require
  split <;> simp_all

end TypedSql
