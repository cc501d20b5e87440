import SchemaHeaders.Text.Decimal
import Mathlib.Tactic.Common

/-!
# Decimal text, digit by digit

What a reader of decimal text looks at besides its value : `digits n` holds digits only, and begins
with a zero only if it is that zero.
-/

namespace SchemaHeaders.Text

theorem isDigit_of_mem_digits (n : Nat) : ∀ c ∈ digits n, c.isDigit = true := by
  rw [digits_eq_toDigits]
  exact fun c hc => Nat.isDigit_of_mem_toDigits (by decide) (by decide) hc

theorem all_isDigit_digits (n : Nat) : (digits n).all Char.isDigit = true :=
  List.all_eq_true.mpr (isDigit_of_mem_digits n)

theorem digitChar_ne_zero : ∀ d < 10, d ≠ 0 → digitChar d ≠ '0' := by decide

/-- The decimal text of a positive number does not begin with a zero. -/
theorem head?_digits_ne {n : Nat} (h : n ≠ 0) : (digits n).head? ≠ some '0' := by
  rw [digits]
  split
  case isTrue hn => simpa using digitChar_ne_zero n hn h
  case isFalse hn =>
    obtain ⟨c, cs, hcs⟩ := List.exists_cons_of_ne_nil (digits_ne_nil (n / 10))
    have hhead : (digits (n / 10)).head? ≠ some '0' := head?_digits_ne (by omega)
    rw [hcs] at hhead ⊢
    exact hhead
termination_by n

/-- Decimal text that begins with a zero is the zero. -/
theorem digits_of_head? {n : Nat} (h : (digits n).head? = some '0') : digits n = ['0'] := by
  by_cases hn : n = 0
  · subst hn
    rw [digits]
    rfl
  · exact absurd h (head?_digits_ne hn)

/-- The decimal text of an integer is digits, or digits after a minus sign. -/
theorem signed_cases (z : Int) :
    (0 ≤ z ∧ signed z = digits z.natAbs) ∨ (z < 0 ∧ signed z = '-' :: digits z.natAbs) := by
  rw [signed]
  split
  case isTrue h => exact Or.inr ⟨h, rfl⟩
  case isFalse h => exact Or.inl ⟨by omega, rfl⟩

/-- The decimal text of an integer is its usual one. -/
theorem ofList_signed (z : Int) : String.ofList (signed z) = toString z := by
  cases z with
  | ofNat n =>
    have hn : ¬Int.ofNat n < 0 := Int.not_lt.mpr (Int.natCast_nonneg n)
    rw [signed, if_neg hn, digits_eq_toDigits]
    rfl
  | negSucc n =>
    rw [signed, if_pos (Int.negSucc_lt_zero n), digits_eq_toDigits, String.ofList_cons]
    rfl

theorem signed_ne_nil (z : Int) : signed z ≠ [] := by
  rcases signed_cases z with ⟨-, h⟩ | ⟨-, h⟩ <;> rw [h]
  · exact digits_ne_nil _
  · exact List.cons_ne_nil _ _

theorem isDigit_of_mem_signed {z : Int} {c : Char} (h : c ∈ signed z) :
    c.isDigit = true ∨ c = '-' := by
  rcases signed_cases z with ⟨-, hz⟩ | ⟨-, hz⟩ <;> rw [hz] at h
  · exact Or.inl (isDigit_of_mem_digits _ c h)
  · rcases List.mem_cons.mp h with rfl | h
    · exact Or.inr rfl
    · exact Or.inl (isDigit_of_mem_digits _ c h)

/-- A digit is a digit of base ten. -/
theorem isDigitOf_ten {c : Char} (h : c.isDigit = true) : isDigitOf 10 c = true := by
  rw [Char.isDigit, Bool.and_eq_true, decide_eq_true_eq, decide_eq_true_eq] at h
  have hrange : '0' ≤ c ∧ c ≤ '9' := h
  have hlow : 48 ≤ c.toNat := hrange.1
  have hhigh : c.toNat ≤ 57 := hrange.2
  rw [isDigitOf, digitValue?, if_pos hrange]
  simp only [decide_eq_true_eq]
  exact (by omega : c.toNat - 48 < 10)

end SchemaHeaders.Text
