import Mathlib.Data.List.Forall2
import Mathlib.Data.List.Infix
import TypedSql.Name.Basic

namespace TypedSql

theorem isUpper_iff {c : Char} : c.isUpper = true ↔ 65 ≤ c.toNat ∧ c.toNat ≤ 90 := by
  show decide ('A'.val ≤ c.val ∧ c.val ≤ 'Z'.val) = true ↔ _
  rw [decide_eq_true_iff, UInt32.le_iff_toNat_le, UInt32.le_iff_toNat_le]
  rfl

theorem isLower_iff {c : Char} : c.isLower = true ↔ 97 ≤ c.toNat ∧ c.toNat ≤ 122 := by
  show (decide ('a'.val ≤ c.val) && decide (c.val ≤ 'z'.val)) = true ↔ _
  rw [Bool.and_eq_true, decide_eq_true_iff, decide_eq_true_iff, UInt32.le_iff_toNat_le,
    UInt32.le_iff_toNat_le]
  rfl

theorem isDigit_iff {c : Char} : c.isDigit = true ↔ 48 ≤ c.toNat ∧ c.toNat ≤ 57 := by
  show (decide ('0'.val ≤ c.val) && decide (c.val ≤ '9'.val)) = true ↔ _
  rw [Bool.and_eq_true, decide_eq_true_iff, decide_eq_true_iff, UInt32.le_iff_toNat_le,
    UInt32.le_iff_toNat_le]
  rfl

theorem isWordStart_iff {c : Char} :
    isWordStart c = true ↔ c.toNat = 95 ∨ (65 ≤ c.toNat ∧ c.toNat ≤ 90) ∨
      (97 ≤ c.toNat ∧ c.toNat ≤ 122) := by
  show ((c.isUpper || c.isLower) || c == '_') = true ↔ _
  rw [Bool.or_eq_true, Bool.or_eq_true, isUpper_iff, isLower_iff, beq_iff_eq, ← Char.toNat_inj,
    or_comm]
  rfl

theorem isDigit_of_start {c : Char} (starts : isWordStart c = true) : c.isDigit = false := by
  rw [isWordStart_iff] at starts
  rw [← Bool.not_eq_true, isDigit_iff]
  omega

theorem toNat_toLower (c : Char) :
    c.toLower.toNat = if 65 ≤ c.toNat ∧ c.toNat ≤ 90 then c.toNat + 32 else c.toNat := by
  have capital : ('A'.val ≤ c.val ∧ c.val ≤ 'Z'.val) ↔ 65 ≤ c.toNat ∧ c.toNat ≤ 90 := by
    rw [UInt32.le_iff_toNat_le, UInt32.le_iff_toNat_le]
    rfl
  by_cases given : 'A'.val ≤ c.val ∧ c.val ≤ 'Z'.val
  · have bounds := capital.mp given
    have lowered : c.toLower = _ := dif_pos given
    rw [lowered, if_pos bounds]
    show (c.val + ('a'.val - 'A'.val)).toNat = c.toNat + 32
    have step : ('a'.val - 'A'.val).toNat = 32 := rfl
    have same : c.val.toNat = c.toNat := rfl
    rw [UInt32.toNat_add, step, same]
    omega
  · have lowered : c.toLower = c := dif_neg given
    rw [lowered, if_neg (mt capital.mpr given)]

theorem toNat_toUpper (c : Char) :
    c.toUpper.toNat = if 97 ≤ c.toNat ∧ c.toNat ≤ 122 then c.toNat - 32 else c.toNat := by
  have small : ('a'.val ≤ c.val ∧ c.val ≤ 'z'.val) ↔ 97 ≤ c.toNat ∧ c.toNat ≤ 122 := by
    rw [UInt32.le_iff_toNat_le, UInt32.le_iff_toNat_le]
    rfl
  by_cases given : 'a'.val ≤ c.val ∧ c.val ≤ 'z'.val
  · have bounds := small.mp given
    have raised : c.toUpper = _ := dif_pos given
    rw [raised, if_pos bounds]
    show (c.val + ('A'.val - 'a'.val)).toNat = c.toNat - 32
    have step : ('A'.val - 'a'.val).toNat = 2 ^ 32 - 32 := rfl
    have same : c.val.toNat = c.toNat := rfl
    rw [UInt32.toNat_add, step, same]
    omega
  · have raised : c.toUpper = c := dif_neg given
    rw [raised, if_neg (mt small.mpr given)]

theorem toLower_eq_iff {c k : Char} (small : k.isLower = true) :
    c.toLower = k ↔ c = k ∨ c = k.toUpper := by
  have bounds := isLower_iff.mp small
  rw [← Char.toNat_inj, ← Char.toNat_inj, ← Char.toNat_inj, toNat_toLower, toNat_toUpper,
    if_pos bounds]
  split <;> omega

def AnyCase (word cs : List Char) : Prop := List.Forall₂ (fun k c => c = k ∨ c = k.toUpper) word cs

instance (word cs : List Char) : Decidable (AnyCase word cs) :=
  inferInstanceAs (Decidable (List.Forall₂ _ word cs))

theorem asciiLower_eq_iff {word cs : List Char} (small : ∀ k ∈ word, k.isLower = true) :
    asciiLower cs = word ↔ AnyCase word cs := by
  induction word generalizing cs with
  | nil => cases cs <;> simp [asciiLower, AnyCase]
  | cons k word ih =>
    rcases List.forall_mem_cons.mp small with ⟨first, others⟩
    cases cs with
    | nil => simp [asciiLower, AnyCase]
    | cons c cs =>
      have rest : asciiLower cs = word ↔ AnyCase word cs := ih others
      simp only [asciiLower, AnyCase] at rest ⊢
      rw [List.map_cons, List.cons.injEq, toLower_eq_iff first, rest, List.forall₂_cons]

theorem occurs_iff {needle cs : List Char} : occurs needle cs = true ↔ needle <:+: cs := by
  induction cs with
  | nil => rw [occurs, List.isEmpty_iff, List.infix_nil]
  | cons c cs ih => rw [occurs, Bool.or_eq_true, List.isPrefixOf_iff_prefix, ih, List.infix_cons_iff]

theorem isWordRest_iff {c : Char} :
    isWordRest c = true ↔ c.toNat = 95 ∨ (48 ≤ c.toNat ∧ c.toNat ≤ 57) ∨
      (65 ≤ c.toNat ∧ c.toNat ≤ 90) ∨ (97 ≤ c.toNat ∧ c.toNat ≤ 122) := by
  have joined : isWordRest c = true ↔ isWordStart c = true ∨ c.isDigit = true := by
    show (((c.isUpper || c.isLower) || c.isDigit) || c == '_') = true ↔
      ((c.isUpper || c.isLower) || c == '_') = true ∨ _
    simp only [Bool.or_eq_true]
    tauto
  rw [joined, isWordStart_iff, isDigit_iff]
  omega

theorem isBlank_of_isWordRest {c : Char} (word : isWordRest c = true) : isBlank c = false := by
  have range := isWordRest_iff.mp word
  simp only [isBlank, Bool.or_eq_false_iff, Bool.and_eq_false_imp, decide_eq_true_eq,
    decide_eq_false_iff_not, beq_eq_false_iff_ne]
  omega

end TypedSql
