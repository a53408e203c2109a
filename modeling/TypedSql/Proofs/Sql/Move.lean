import TypedSql.Proofs.Render.Recorded
import TypedSql.Proofs.Sql.Lexer

namespace TypedSql

def Piece.move (f : Hole → Hole) : Piece → Piece
  | .hole use => .hole (f use)
  | p => p

def Sql.move (f : Hole → Hole) (s : Sql) : Sql := s.map (Piece.move f)

section Phrases
variable (f : Hole → Hole)

@[simp] theorem Sql.move_nil : Sql.move f [] = [] := rfl

@[simp] theorem Sql.move_text_cons (t : String) (s : Sql) :
    Sql.move f (.text t :: s) = .text t :: s.move f := rfl

@[simp] theorem Sql.move_name_cons (kind : NameKind) (n : String) (s : Sql) :
    Sql.move f (.name kind n :: s) = .name kind n :: s.move f := rfl

@[simp] theorem Sql.move_append (s t : Sql) : Sql.move f (s ++ t) = s.move f ++ t.move f :=
  List.map_append

@[simp] theorem Sql.move_sql (t : String) : Sql.move f (sql t) = sql t := rfl

@[simp] theorem Sql.move_flatten (parts : List Sql) :
    Sql.move f parts.flatten = (parts.map (Sql.move f)).flatten := List.map_flatten

@[simp] theorem Sql.move_join (separator : String) (parts : List Sql) :
    (Sql.join separator parts).move f = Sql.join separator (parts.map (Sql.move f)) := by
  induction parts with
  | nil => rfl
  | cons part rest ih => cases rest <;> simp_all [Sql.join]

@[simp] theorem Sql.move_commaList (parts : List Sql) :
    (Sql.commaList parts).move f = Sql.commaList (parts.map (Sql.move f)) := Sql.move_join f _ _

@[simp] theorem Sql.move_parenthesised (s : Sql) :
    (Sql.parenthesised s).move f = Sql.parenthesised (s.move f) := by
  simp [Sql.parenthesised]

variable (d : Dialect) (left right : Sql)

@[simp] theorem move_compareSides (op : Operator) :
    (compareSides d left op right).move f = compareSides d (left.move f) op (right.move f) := by
  cases op <;> cases d <;>
    simp [compareSides, Dialect.iLike, Dialect.inArray, Dialect.notInArray]

@[simp] theorem move_mathCall (function : MathFunction) (argument : Option Sql) :
    (d.mathCall function left argument).move f =
      d.mathCall function (left.move f) (argument.map (Sql.move f)) := by
  cases d <;> cases function <;> cases argument <;> simp [Dialect.mathCall, Dialect.call]

theorem binary_move (op : BinaryOp) :
    d.binary (left.move f) op (right.move f) = (d.binary left op right).map (Sql.move f) := by
  cases d <;> cases op <;>
    simp [Dialect.binary, Dialect.require, Dialect.supports, BinaryOp.isVector, bind, Except.bind,
      pure, Except.pure, Except.map]

end Phrases

section Holes
variable (f : Hole → Hole)

@[simp] theorem Sql.holes_move (s : Sql) : (s.move f).holes = s.holes.map f := by
  induction s with
  | nil => rfl
  | cons p rest ih => cases p <;> simp_all [Sql.move, Sql.holes, Piece.move, List.filterMap_cons]

theorem Sql.move_of_silent {s : Sql} (silent : s.holes = []) : s.move f = s := by
  induction s with
  | nil => rfl
  | cons p rest ih =>
    cases p with
    | hole use => simp [Sql.holes] at silent
    | _ => exact congrArg _ (ih silent)

theorem Sql.map_move_of_silent {parts : List Sql} (silent : parts.flatMap Sql.holes = []) :
    parts.map (Sql.move f) = parts := by
  induction parts with
  | nil => rfl
  | cons part rest ih =>
    obtain ⟨first, others⟩ := List.append_eq_nil_iff.mp silent
    rw [List.map_cons, Sql.move_of_silent f first, ih others]

@[simp] theorem Sql.move_id (s : Sql) : s.move id = s := by
  induction s with
  | nil => rfl
  | cons p rest ih => cases p <;> exact congrArg _ ih

theorem Sql.write_move (d : Dialect) (spell : Hole → String) (s : Sql) :
    (s.move f).write d spell = s.write d fun use => spell (f use) := by
  rw [Sql.write, Sql.write, Sql.move, List.map_map]
  congr 1
  refine List.map_congr_left fun p _ => ?_
  cases p <;> rfl

theorem Sql.write_congr {s : Sql} (d : Dialect) {spell other : Hole → String}
    (same : ∀ use ∈ s.holes, spell use = other use) : s.write d spell = s.write d other := by
  have each : ∀ p ∈ s, p.write d spell = p.write d other := by
    intro p member
    cases p with
    | hole use => exact same use (List.mem_filterMap.mpr ⟨.hole use, member, rfl⟩)
    | _ => rfl
  rw [Sql.write, Sql.write, List.map_congr_left each]

theorem Sql.write_append (d : Dialect) (spell : Hole → String) (s t : Sql) :
    (s ++ t).write d spell = s.write d spell ++ t.write d spell := by
  induction s with
  | nil => simp [Sql.write]
  | cons p rest ih =>
    rw [← String.toList_inj] at ih ⊢
    simp only [List.cons_append, toList_write_cons, ih, String.toList_append, List.append_assoc]

@[simp] theorem Sql.write_sql (d : Dialect) (spell : Hole → String) (t : String) :
    (sql t).write d spell = t := by
  simp [sql, Sql.write, Piece.write, String.join]

end Holes

end TypedSql
