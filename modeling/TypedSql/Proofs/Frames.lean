import Mathlib.Algebra.Order.Monoid.Unbundled.WithTop
import Mathlib.Data.Int.ConditionallyCompleteOrder
import Mathlib.Order.ConditionallyCompleteLattice.Basic
import Mathlib.Tactic.SplitIfs
import TypedSql.Proofs.Render.Derivation

namespace TypedSql

namespace FrameBound

def place : FrameBound → WithBot (WithTop ℤ)
  | .unboundedPreceding => ⊥
  | .preceding n => ((-(n.toNat : ℤ) : ℤ) : WithTop ℤ)
  | .currentRow => ((0 : ℤ) : WithTop ℤ)
  | .following n => ((n.toNat : ℤ) : WithTop ℤ)
  | .unboundedFollowing => (⊤ : WithTop ℤ)

variable {first last : FrameBound}

/-- Kinds that come in order are places in order, whatever the distances are. -/
theorem place_le_of_rank_lt (order : first.rank < last.rank) : first.place ≤ last.place := by
  cases first with
  | unboundedPreceding => exact bot_le
  | preceding n =>
    cases last with
    | currentRow | following m =>
      simp only [place, WithBot.coe_le_coe, WithTop.coe_le_coe]
      omega
    | unboundedFollowing => simp [place]
    | _ => simp [rank] at order
  | currentRow =>
    cases last with
    | following m =>
      simp only [place, WithBot.coe_le_coe, WithTop.coe_le_coe]
      omega
    | unboundedFollowing => simp [place]
    | _ => simp [rank] at order
  | following n => cases last <;> simp [rank, place] at order ⊢
  | unboundedFollowing => cases last <;> simp [rank] at order

theorem place_lt_of_rank_eq (same : first.rank = last.rank) :
    last.place < first.place ↔
      (∃ n m, first = .preceding n ∧ last = .preceding m ∧ n < m) ∨
        ∃ n m, first = .following n ∧ last = .following m ∧ m < n := by
  cases first <;> cases last <;> simp [rank] at same
  case preceding.preceding n m =>
    simp only [place, WithBot.coe_lt_coe, WithTop.coe_lt_coe]
    simp [UInt64.lt_iff_toNat_lt]
  case following.following n m =>
    simp only [place, WithBot.coe_lt_coe, WithTop.coe_lt_coe]
    simp [UInt64.lt_iff_toNat_lt]
  all_goals simp

theorem place_lt_iff (order : first.rank ≤ last.rank) :
    last.place < first.place ↔
      (∃ n m, first = .preceding n ∧ last = .preceding m ∧ n < m) ∨
        ∃ n m, first = .following n ∧ last = .following m ∧ m < n := by
  rcases order.lt_or_eq with before | same
  · refine iff_of_false (place_le_of_rank_lt before).not_gt ?_
    rintro (⟨n, m, rfl, rfl, -⟩ | ⟨n, m, rfl, rfl, -⟩) <;> exact lt_irrefl _ before
  · exact place_lt_of_rank_eq same

end FrameBound

namespace Frame
variable {frame : Frame}

def last (frame : Frame) : FrameBound := frame.stop.getD .currentRow

/-- A frame is accepted by the kinds of its bounds. -/
theorem renders_iff :
    (∃ s, frame.render = .ok s) ↔
      frame.start ≠ .unboundedFollowing ∧ frame.stop ≠ some .unboundedPreceding ∧
        frame.start.rank ≤ frame.last.rank := by
  obtain ⟨units, start, stop⟩ := frame
  cases stop with
  | none =>
    simp only [render, last, Option.getD_none]
    split_ifs <;> simp_all
  | some stop =>
    simp only [render, last, Option.getD_some]
    split_ifs <;> simp_all

end Frame

/-- The bounds of a frame that is written come in order, but for two distances in one direction:
    the kinds are compared and the numbers of rows are not. -/
theorem WindowCall.frame_of_renders {w : WindowCall} {c : Context} {s : Sql}
    (made : ((Expr.window w).render c).result = .ok s) {frame : Frame}
    (framed : w.window.frame = some frame) :
    frame.start ≠ .unboundedFollowing ∧ frame.stop ≠ some .unboundedPreceding ∧
      (frame.last.place < frame.start.place ↔
        (∃ n m, frame.start = .preceding n ∧ frame.stop = some (.preceding m) ∧ n < m) ∨
          ∃ n m, frame.start = .following n ∧ frame.stop = some (.following m) ∧ m < n) := by
  have derived : Renders c (.expr (.window w)) s := (Part.expr (.window w)).derivable c s made
  cases derived with
  | window _ _ _ _ written =>
    rw [framed] at written
    obtain ⟨text, rendered, -⟩ := Except.map_eq_ok.mp written
    obtain ⟨starts, stops, order⟩ := Frame.renders_iff.mp ⟨text, rendered⟩
    refine ⟨starts, stops, (FrameBound.place_lt_iff order).trans ?_⟩
    cases given : frame.stop <;> simp [Frame.last, given]

def backwardFrame : Frame := .rows (.preceding 1) (.preceding 2)

def rankedBackwards : WindowCall :=
  ⟨.rank, none, none, none, none, ⟨[], [], some backwardFrame⟩⟩

theorem rankedBackwards_renders (d : Dialect) :
    ∃ s, ((Expr.window rankedBackwards).render (.top { dialect := d })).result = .ok s := by
  cases d <;> exact ⟨_, rfl⟩

theorem rankedBackwards_inverted :
    (∃ s, ((Expr.window rankedBackwards).render (.top {})).result = .ok s) ∧
      rankedBackwards.window.frame = some backwardFrame ∧
      backwardFrame.start ≠ .unboundedFollowing ∧
      backwardFrame.stop ≠ some .unboundedPreceding ∧
      backwardFrame.last.place < backwardFrame.start.place := by
  obtain ⟨s, made⟩ := rankedBackwards_renders .postgres
  obtain ⟨starts, stops, inverted⟩ := WindowCall.frame_of_renders made rfl
  exact ⟨⟨s, made⟩, rfl, starts, stops, inverted.mpr (.inl ⟨1, 2, rfl, rfl, by decide⟩)⟩

/-- Every dialect is sent a frame that ends before it starts. -/
theorem rankedBackwards_sent :
    (∀ d : Dialect,
        ∃ s, ((Expr.window rankedBackwards).render (.top { dialect := d })).result = .ok s) ∧
      ¬∀ (w : WindowCall) (c : Context) (s : Sql), ((Expr.window w).render c).result = .ok s →
        ∀ frame : Frame, w.window.frame = some frame → frame.start.place ≤ frame.last.place := by
  refine ⟨rankedBackwards_renders, fun ordered => ?_⟩
  obtain ⟨s, made⟩ := rankedBackwards_renders .postgres
  have inOrder : backwardFrame.start.place ≤ backwardFrame.last.place :=
    ordered rankedBackwards _ s made backwardFrame rfl
  have backwards : backwardFrame.last.place < backwardFrame.start.place :=
    (FrameBound.place_lt_iff (by decide)).mpr (.inl ⟨1, 2, rfl, rfl, by decide⟩)
  exact inOrder.not_gt backwards

end TypedSql
