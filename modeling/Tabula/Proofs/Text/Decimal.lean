import Mathlib.Data.List.Basic
import Mathlib.Tactic.IntervalCases
import Tabula.Text.Decimal

/-!
# Written integers

The decimal text of an integer is one or more digits, after a minus sign if the integer is
negative, and starts with a zero only if it is the text of zero. It is read back as the integer.
-/

namespace Tabula.Text

theorem head?_toDigits_ne_zero {number : Nat} (positive : 0 < number) :
    (Nat.toDigits 10 number).head? ≠ some '0' := by
  induction number using Nat.strongRecOn with
  | ind number ih =>
      rw [Nat.toDigits_eq_if (by decide)]
      split
      · rename_i small
        intro zero
        rw [List.head?_cons, Option.some.injEq] at zero
        have value := congrArg Char.toNat zero
        rw [Nat.toNat_digitChar_of_lt_ten small] at value
        change 48 + number = 48 at value
        omega
      · rw [List.head?_append_of_ne_nil _ Nat.toDigits_ne_nil]
        exact ih _ (by omega) (by omega)

theorem isDigit_of_mem_toDigits {number : Nat} {c : Char} (c_mem : c ∈ Nat.toDigits 10 number) :
    c.isDigit = true :=
  Nat.isDigit_of_mem_toDigits (by decide) (by decide) c_mem

theorem natural?_toDigits (number : Nat) : natural? (Nat.toDigits 10 number) = some number := by
  rw [natural?, if_pos, Nat.ofDigitChars_ten_toDigits]
  refine ⟨Nat.toDigits_ne_nil, ?_⟩
  rw [List.all_eq_true]
  intro c c_mem
  exact isDigit_of_mem_toDigits c_mem

theorem integer?_toDigits (number : Nat) :
    integer? (Nat.toDigits 10 number) = some (Int.ofNat number) := by
  have value := natural?_toDigits number
  unfold integer?
  split
  · rename_i digits written
    have plus : '+' ∈ Nat.toDigits 10 number := by rw [written]; exact List.mem_cons_self
    exact absurd (isDigit_of_mem_toDigits plus) (by decide)
  · rename_i digits written
    have minus : '-' ∈ Nat.toDigits 10 number := by rw [written]; exact List.mem_cons_self
    exact absurd (isDigit_of_mem_toDigits minus) (by decide)
  · rw [value]
    rfl

theorem integer?_decimal (value : Int64) : integer? (decimal value) = some value.toInt := by
  rw [decimal]
  split
  · rw [integer?, natural?_toDigits, Option.map_some, Option.some.injEq]
    simp only [Int.ofNat_eq_natCast]
    omega
  · rw [integer?_toDigits, Option.some.injEq]
    simp only [Int.ofNat_eq_natCast]
    omega

theorem decimal_ne_nil (value : Int64) : decimal value ≠ [] := by
  rw [decimal]
  split
  · exact List.cons_ne_nil _ _
  · exact Nat.toDigits_ne_nil

/-- The characters that decimal texts are written with. -/
theorem mem_of_mem_decimal {value : Int64} {c : Char} (c_mem : c ∈ decimal value) :
    c ∈ ['-', '0', '1', '2', '3', '4', '5', '6', '7', '8', '9'] := by
  have written : c = '-' ∨ c.isDigit = true := by
    rw [decimal] at c_mem
    split at c_mem
    · exact (List.mem_cons.mp c_mem).imp_right isDigit_of_mem_toDigits
    · exact .inr (isDigit_of_mem_toDigits c_mem)
  rcases written with rfl | digit
  · exact List.mem_cons_self
  · simp only [Char.isDigit, Bool.and_eq_true, decide_eq_true_eq] at digit
    have lower : 48 ≤ c.toNat := digit.1
    have upper : c.toNat ≤ 57 := digit.2
    rw [← Char.ofNat_toNat c]
    interval_cases c.toNat <;> decide

end Tabula.Text
