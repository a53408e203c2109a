import TypedSql.Proofs.Sql.View
import TypedSql.Proofs.Sql.Walk
import TypedSql.Proofs.Tree.Rename

namespace TypedSql

def Piece.rename (ρ : Renaming) : Piece → Piece
  | .name kind n => .name kind (ρ.apply kind n)
  | p => p

def Sql.rename (ρ : Renaming) (s : Sql) : Sql := s.map (Piece.rename ρ)

section Phrases
variable (ρ : Renaming)

@[simp] theorem Sql.rename_nil : Sql.rename ρ [] = [] := rfl

@[simp] theorem Sql.rename_text_cons (t : String) (s : Sql) :
    Sql.rename ρ (.text t :: s) = .text t :: s.rename ρ := rfl

@[simp] theorem Sql.rename_name_cons (kind : NameKind) (n : String) (s : Sql) :
    Sql.rename ρ (.name kind n :: s) = .name kind (ρ.apply kind n) :: s.rename ρ := rfl

@[simp] theorem Sql.rename_append (s t : Sql) : Sql.rename ρ (s ++ t) = s.rename ρ ++ t.rename ρ :=
  List.map_append

@[simp] theorem Sql.rename_sql (t : String) : Sql.rename ρ (sql t) = sql t := rfl

@[simp] theorem Sql.rename_flatten (parts : List Sql) :
    Sql.rename ρ parts.flatten = (parts.map (Sql.rename ρ)).flatten := List.map_flatten

@[simp] theorem Sql.rename_join (separator : String) (parts : List Sql) :
    (Sql.join separator parts).rename ρ = Sql.join separator (parts.map (Sql.rename ρ)) := by
  induction parts with
  | nil => rfl
  | cons part rest ih => cases rest <;> simp_all [Sql.join]

@[simp] theorem Sql.rename_commaList (parts : List Sql) :
    (Sql.commaList parts).rename ρ = Sql.commaList (parts.map (Sql.rename ρ)) :=
  Sql.rename_join ρ _ _

@[simp] theorem Sql.rename_parenthesised (s : Sql) :
    (Sql.parenthesised s).rename ρ = Sql.parenthesised (s.rename ρ) := by
  simp [Sql.parenthesised]

@[simp] theorem Context.rename_placeholder (c : Context) (p : Param) :
    (c.placeholder p).rename ρ = c.placeholder p := rfl

@[simp] theorem Table.render_rename (t : Table) : (t.rename ρ).render = t.render.rename ρ := by
  obtain ⟨name, letter⟩ := t
  cases letter <;> rfl

@[simp] theorem Field.column_rename (f : Field) : (f.rename ρ).column = f.column.rename ρ := by
  obtain ⟨name, qualifier, path⟩ := f
  rcases qualifier with _ | _ | _ <;> rfl

variable (d : Dialect) (left right : Sql)

@[simp] theorem rename_compareSides (op : Operator) :
    (compareSides d left op right).rename ρ =
      compareSides d (left.rename ρ) op (right.rename ρ) := by
  cases op <;> cases d <;>
    simp [compareSides, Dialect.iLike, Dialect.inArray, Dialect.notInArray]

@[simp] theorem rename_mathCall (function : MathFunction) (argument : Option Sql) :
    (d.mathCall function left argument).rename ρ =
      d.mathCall function (left.rename ρ) (argument.map (Sql.rename ρ)) := by
  cases d <;> cases function <;> cases argument <;> simp [Dialect.mathCall, Dialect.call]

theorem rename_binary {op : BinaryOp} {s : Sql} (made : d.binary left op right = .ok s) :
    d.binary (left.rename ρ) op (right.rename ρ) = .ok (s.rename ρ) := by
  cases d <;> cases op <;>
    simp [Dialect.binary, Dialect.require, Dialect.supports, BinaryOp.isVector, bind, Except.bind,
      pure, Except.pure] at made ⊢
  all_goals simp [← made]

theorem Sql.rename_of_nameless {s : Sql} (nameless : s.names = []) : s.rename ρ = s := by
  induction s with
  | nil => rfl
  | cons p rest ih =>
    cases p with
    | name kind n => simp [Sql.names] at nameless
    | _ => exact congrArg _ (ih nameless)

end Phrases

section Views
variable (ρ : Renaming) (s : Sql)

theorem Sql.holes_rename : (s.rename ρ).holes = s.holes := by
  rw [Sql.rename, Sql.holes, Sql.holes, List.filterMap_map]
  congr
  funext p
  cases p <;> rfl

theorem Sql.names_rename : (s.rename ρ).names = s.names.map fun o => (o.1, ρ.apply o.1 o.2) := by
  rw [Sql.rename, Sql.names, Sql.names, List.filterMap_map, List.map_filterMap]
  congr
  funext p
  cases p <;> rfl

end Views

/-- A token with only the place of a name left. -/
def Token.hide : Token → Token
  | .name _ => .name ""
  | token => token

section Tokens
variable {spell : Hole → String}

theorem map_hide_glue (c : Char) (tokens : List Token) :
    (glue c tokens).map Token.hide = glue c (tokens.map Token.hide) := by
  cases tokens with
  | nil => rfl
  | cons token rest => cases token <;> rfl

theorem map_hide_glue_all (cs : List Char) (tokens : List Token) :
    (cs.foldr glue tokens).map Token.hide = cs.foldr glue (tokens.map Token.hide) := by
  induction cs with
  | nil => rfl
  | cons c cs ih => rw [List.foldr_cons, map_hide_glue, ih, List.foldr_cons]

theorem Sql.hide_tokens_rename (ρ : Renaming) (s : Sql) :
    ((s.rename ρ).tokens spell).map Token.hide = (s.tokens spell).map Token.hide := by
  induction s with
  | nil => rfl
  | cons p rest ih =>
    have step : Sql.rename ρ (p :: rest) = p.rename ρ :: Sql.rename ρ rest := rfl
    cases p <;> simp only [step, Piece.rename, Sql.tokens, map_hide_glue_all, List.map_cons, ih,
      Token.hide]

end Tokens

end TypedSql
