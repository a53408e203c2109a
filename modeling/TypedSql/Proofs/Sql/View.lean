import TypedSql.Proofs.Render.Success
import TypedSql.Render.Insert
import TypedSql.Render.Select
import TypedSql.Tree.Occurrence

namespace TypedSql

def Piece.occurrence? : Piece → Option Occurrence
  | .name kind n => some (kind, n)
  | _ => none

def Sql.names (s : Sql) : List Occurrence := s.filterMap Piece.occurrence?

@[simp] theorem Piece.hole?_text (t : String) : (Piece.text t).hole? = none := rfl
@[simp] theorem Piece.hole?_name (kind : NameKind) (n : String) :
    (Piece.name kind n).hole? = none := rfl
@[simp] theorem Piece.hole?_literal (l : String) : (Piece.literal l).hole? = none := rfl
@[simp] theorem Piece.hole?_hole (hole : Hole) : (Piece.hole hole).hole? = some hole := rfl

@[simp] theorem Piece.occurrence?_text (t : String) : (Piece.text t).occurrence? = none := rfl
@[simp] theorem Piece.occurrence?_name (kind : NameKind) (n : String) :
    (Piece.name kind n).occurrence? = some (kind, n) := rfl
@[simp] theorem Piece.occurrence?_literal (l : String) : (Piece.literal l).occurrence? = none := rfl
@[simp] theorem Piece.occurrence?_hole (hole : Hole) : (Piece.hole hole).occurrence? = none := rfl

theorem Dialect.binary_ok {d : Dialect} {left right s : Sql} {op : BinaryOp}
    (made : d.binary left op right = .ok s) :
    s = sql "CONCAT(" ++ left ++ sql ", " ++ right ++ sql ")" ∨ s = left ++ sql " + " ++ right ∨
      s = left ++ sql (" " ++ op.symbol ++ " ") ++ right := by
  cases d <;> cases op <;>
    simp [Dialect.binary, Dialect.require, Dialect.supports, BinaryOp.isVector, bind, Except.bind,
      pure, Except.pure] at made
  all_goals simp [← made]

theorem MathCall.argument_eq {call : MathCall} {given : Option Param}
    (checked : call.argument? = .ok given) : call.argument = given := by
  obtain ⟨function, f, argument⟩ := call
  cases function <;> cases argument <;> simp_all [MathCall.argument?]

theorem MathCall.function_of_argument {call : MathCall} {p : Param}
    (given : call.argument? = .ok (some p)) : call.function = .round ∨ call.function = .power := by
  obtain ⟨function, f, argument⟩ := call
  cases function <;> cases argument <;> simp_all [MathCall.argument?]

class IsView {α : Type} (view : Piece → Option α) : Prop where
  text : ∀ t, view (.text t) = none
  literal : ∀ l, view (.literal l) = none

instance : IsView Piece.hole? := ⟨fun _ => rfl, fun _ => rfl⟩

instance : IsView Piece.occurrence? := ⟨fun _ => rfl, fun _ => rfl⟩

section Views
variable {α : Type} {view : Piece → Option α} [IsView view]

@[simp] theorem filterMap_text_cons (t : String) (s : Sql) :
    List.filterMap view (.text t :: s) = s.filterMap view :=
  List.filterMap_cons_none (IsView.text t)

@[simp] theorem filterMap_literal_cons (l : String) (s : Sql) :
    List.filterMap view (.literal l :: s) = s.filterMap view :=
  List.filterMap_cons_none (IsView.literal l)

@[simp] theorem filterMap_sql (t : String) : (sql t).filterMap view = [] :=
  filterMap_text_cons t []

@[simp] theorem filterMap_join (separator : String) (parts : List Sql) :
    (Sql.join separator parts).filterMap view = parts.flatMap (·.filterMap view) := by
  induction parts with
  | nil => rfl
  | cons part rest ih => cases rest <;> simp_all [Sql.join]

@[simp] theorem filterMap_commaList (parts : List Sql) :
    (Sql.commaList parts).filterMap view = parts.flatMap (·.filterMap view) :=
  filterMap_join _ _

@[simp] theorem filterMap_parenthesised (s : Sql) :
    (Sql.parenthesised s).filterMap view = s.filterMap view := by
  simp [Sql.parenthesised]

@[simp] theorem filterMap_tableWithAlias (s : Sql) (letter : TableAlias) :
    (tableWithAlias s letter).filterMap view = s.filterMap view := by
  simp [tableWithAlias]

variable (d : Dialect) (left right : Sql)

@[simp] theorem filterMap_inArray :
    (d.inArray left right).filterMap view = left.filterMap view ++ right.filterMap view := by
  cases d <;> simp [Dialect.inArray]

@[simp] theorem filterMap_notInArray :
    (d.notInArray left right).filterMap view = left.filterMap view ++ right.filterMap view := by
  cases d <;> simp [Dialect.notInArray]

@[simp] theorem filterMap_iLike (negated : Bool) :
    (d.iLike left right negated).filterMap view = left.filterMap view ++ right.filterMap view := by
  cases d <;> simp [Dialect.iLike]

@[simp] theorem filterMap_compareSides (op : Operator) :
    (compareSides d left op right).filterMap view =
      left.filterMap view ++ right.filterMap view := by
  cases op <;> simp [compareSides]

theorem filterMap_binary {op : BinaryOp} {s : Sql} (made : d.binary left op right = .ok s) :
    s.filterMap view = left.filterMap view ++ right.filterMap view := by
  rcases Dialect.binary_ok made with rfl | rfl | rfl <;> simp

theorem filterMap_mathCall_some {function : MathFunction}
    (takes : function = .round ∨ function = .power) :
    (d.mathCall function left (some right)).filterMap view =
      left.filterMap view ++ right.filterMap view := by
  rcases takes with rfl | rfl <;> cases d <;> simp [Dialect.mathCall, Dialect.call]

theorem filterMap_mathCall_none (function : MathFunction) :
    (d.mathCall function left none).filterMap view = left.filterMap view := by
  cases d <;> cases function <;> simp [Dialect.mathCall, Dialect.call]

end Views

end TypedSql
