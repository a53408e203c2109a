import Mathlib.Data.List.Basic
import Mathlib.Data.List.TakeWhile
import Mathlib.Tactic.IntervalCases
import TypedSql.Json.Token
import TypedSql.Proofs.Sql.Hole

namespace TypedSql

theorem Decimal.natOfDigits_toDigits (n : Nat) : natOfDigits (Nat.toDigits 10 n) = n :=
  Nat.ofDigitChars_ten_toDigits

theorem head_toDigits {n : Nat} (positive : 0 < n) : (Nat.toDigits 10 n).head? ≠ some '0' := by
  induction n using Nat.strongRecOn with
  | ind n ih =>
    by_cases small : n < 10
    · rw [Nat.toDigits_of_lt_base small]
      interval_cases n <;> decide
    · have fewer : (Nat.toDigits 10 (n / 10)).head? ≠ some '0' := ih _ (by omega) (by omega)
      rw [Nat.toDigits_of_base_le (by omega) (by omega)]
      rwa [List.head?_append_of_ne_nil _ Nat.toDigits_ne_nil]

theorem Decimal.roundToFloat_le (n : Nat) : roundToFloat n ≤ 2 * n + 1 := by
  have unit : Nat.pow 2 (n.log2 - 52) ≤ n + 1 := by
    by_cases zero : n = 0
    · subst zero
      decide
    · have power : 2 ^ n.log2 ≤ n := Nat.log2_self_le zero
      have less : 2 ^ (n.log2 - 52) ≤ 2 ^ n.log2 := Nat.pow_le_pow_right (by omega) (by omega)
      exact le_trans less (by omega)
  have product : n / Nat.pow 2 (n.log2 - 52) * Nat.pow 2 (n.log2 - 52) ≤ n := Nat.div_mul_le_self _ _
  unfold roundToFloat
  simp only
  split
  · omega
  · rw [Nat.add_mul]
    omega

namespace Json

namespace Number

theorem fitting_all {digits : List Char} {n : Nat}
    (fits : digits.foldl (fun n c => 10 * n + (c.toNat - 48)) n < UInt64.size) :
    fitting n digits = (digits.foldl (fun n c => 10 * n + (c.toNat - 48)) n, []) := by
  induction digits generalizing n with
  | nil => rfl
  | cons c rest ih =>
    have grows (rest : List Char) (m : Nat) :
        m ≤ rest.foldl (fun n c => 10 * n + (c.toNat - 48)) m := by
      induction rest generalizing m with
      | nil => exact Nat.le_refl m
      | cons c rest more =>
        have step : m ≤ 10 * m + (c.toNat - 48) := by omega
        exact le_trans step (more _)
    have first : 10 * n + (c.toNat - 48) < UInt64.size := lt_of_le_of_lt (grows rest _) fits
    rw [fitting, if_pos first, ih fits]
    rfl

def ofDigits (n : Nat) : Number := ⟨false, Nat.toDigits 10 n, [], none⟩

theorem readWhole_toDigits (n : Nat) :
    readWhole (Nat.toDigits 10 n) = some (Nat.toDigits 10 n, []) := by
  have digits : ∀ c ∈ Nat.toDigits 10 n, c.isDigit = true := fun c => isDigit_of_mem_toDigits
  have taken : (Nat.toDigits 10 n).takeWhile Char.isDigit = Nat.toDigits 10 n :=
    List.takeWhile_eq_self_iff.mpr digits
  have left : (Nat.toDigits 10 n).dropWhile Char.isDigit = [] :=
    List.dropWhile_eq_nil_iff.mpr digits
  have unpadded : ¬((Nat.toDigits 10 n).head? == some '0' && 1 < (Nat.toDigits 10 n).length) := by
    by_cases zero : n = 0
    · subst zero
      decide
    · simp [head_toDigits (Nat.pos_of_ne_zero zero)]
  simp only [readWhole, Reader.run1, taken, left, List.isEmpty_iff, Nat.toDigits_ne_nil, ↓reduceIte,
    Option.bind_eq_bind, Option.bind_some, if_neg unpadded]

theorem read_toDigits (n : Nat) : read (Nat.toDigits 10 n) = some (ofDigits n, []) := by
  have unsigned : readUnsigned false (Nat.toDigits 10 n) = some (ofDigits n, []) := by
    simp [readUnsigned, readWhole_toDigits, readFraction, readExponent, ofDigits]
  unfold read
  split
  · rename_i text spelled
    have minus : '-' ∈ Nat.toDigits 10 n := spelled ▸ List.mem_cons_self
    exact absurd (isDigit_of_mem_toDigits minus) (by decide)
  · exact unsigned

theorem isTooLarge_ofDigits {n : Nat} (fits : n < UInt64.size) :
    (ofDigits n).isTooLarge = false := by
  have whole : fitting 0 (Nat.toDigits 10 n) = (n, []) := by
    have value := Decimal.natOfDigits_toDigits n
    unfold Decimal.natOfDigits at value
    rw [fitting_all (by rw [value]; exact fits), value]
  have scaled : (ofDigits n).scaled = (n, 0) := by
    simp [Number.scaled, ofDigits, whole, fitting]
  have one : Decimal.roundToFloat (Nat.pow 10 0) = 1 := by decide
  have small : Decimal.roundToFloat n < Decimal.floatLimit := by
    have rounded := Decimal.roundToFloat_le n
    have room : 2 * UInt64.size < Decimal.floatLimit := by decide +kernel
    omega
  simp only [isTooLarge, scaled]
  show (n != 0 && (decide (308 < 0) || decide (Decimal.floatLimit ≤
    Decimal.roundToFloat n * Decimal.roundToFloat (Nat.pow 10 0)))) = false
  rw [one, Nat.mul_one, decide_eq_false (by omega), decide_eq_false (by omega)]
  simp

end Number

theorem Token.readWord_toDigits {n : Nat} (fits : n < UInt64.size) :
    readWord (Nat.toDigits 10 n) = some (.nat n, []) := by
  have digits : ∀ c ∈ Nat.toDigits 10 n, c.isDigit = true := fun c => isDigit_of_mem_toDigits
  have value : (Number.ofDigits n).nat? = some n := by
    simp [Number.nat?, Number.ofDigits, Decimal.natOfDigits_toDigits]
  unfold readWord
  split
  case _ spelled => exact absurd (digits 't' (spelled ▸ List.mem_cons_self)) (by decide)
  case _ spelled => exact absurd (digits 'f' (spelled ▸ List.mem_cons_self)) (by decide)
  case _ spelled => exact absurd (digits 'n' (spelled ▸ List.mem_cons_self)) (by decide)
  case _ =>
    simp [Number.read_toDigits, ofNumber, Number.isTooLarge_ofDigits fits, value]

end Json
end TypedSql
