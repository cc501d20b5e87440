import Mathlib.Tactic.Common

/-!
# Characters

What holds of the characters of a given text is settled by looking at these alone
(`decidableForallMem`, `decidableExistsMem`). What holds of every ASCII character follows from the
first 128 code points (`of_ascii`), and so do the facts on letters and digits and their case.
-/

namespace SchemaHeaders.Text

/-! ## Checks -/

/-! Only the characters of a list are looked at, not all that there are. -/

instance decidableForallMem {P : Char → Prop} [DecidablePred P] (cs : List Char) :
    Decidable (∀ c ∈ cs, P c) :=
  List.decidableBAll P cs

instance decidableExistsMem {P : Char → Prop} [DecidablePred P] (cs : List Char) :
    Decidable (∃ c ∈ cs, P c) :=
  List.decidableBEx P cs

instance decidableExistsMemOption {P : Char → Prop} [DecidablePred P] (c? : Option Char) :
    Decidable (∃ c ∈ c?, P c) :=
  Option.decidableExistsMem c?

/-! ## ASCII characters -/

/-- What holds of the first 128 code points holds of every ASCII character. -/
theorem of_ascii {P : Char → Prop} (h : ∀ n < 0x80, P (.ofNat n)) {c : Char}
    (hc : c.toNat < 0x80) : P c := by
  have hchar := h c.toNat hc
  rwa [Char.ofNat_toNat] at hchar

variable {c : Char}

theorem ascii_of_isAlphanum (h : c.isAlphanum = true) : c.toNat < 0x80 := by
  change ((decide (65 ≤ c.val ∧ c.val ≤ 90) || (97 ≤ c.val && c.val ≤ 122)) ||
    (48 ≤ c.val && c.val ≤ 57)) = true at h
  simp only [Bool.or_eq_true, Bool.and_eq_true, decide_eq_true_eq, UInt32.le_iff_toNat_le] at h
  change ((65 ≤ c.toNat ∧ c.toNat ≤ 90) ∨ 97 ≤ c.toNat ∧ c.toNat ≤ 122) ∨
    48 ≤ c.toNat ∧ c.toNat ≤ 57 at h
  omega

theorem isAlphanum_of_isAlpha (h : c.isAlpha = true) : c.isAlphanum = true :=
  Bool.or_eq_true_iff.mpr (Or.inl h)

theorem isAlphanum_of_isDigit (h : c.isDigit = true) : c.isAlphanum = true :=
  Bool.or_eq_true_iff.mpr (Or.inr h)

theorem isAlpha_of_isLower (h : c.isLower = true) : c.isAlpha = true :=
  Bool.or_eq_true_iff.mpr (Or.inr h)

theorem isAlphanum_of_isLower (h : c.isLower = true) : c.isAlphanum = true :=
  isAlphanum_of_isAlpha (isAlpha_of_isLower h)

theorem toNat_of_isLower (h : c.isLower = true) : 97 ≤ c.toNat ∧ c.toNat ≤ 122 := by
  change (97 ≤ c.val && c.val ≤ 122) = true at h
  rwa [Bool.and_eq_true, decide_eq_true_eq, decide_eq_true_eq] at h

/-- What holds of the ASCII letters and digits holds of every letter and digit. -/
theorem of_isAlphanum {P : Char → Prop}
    (hP : ∀ n < 0x80, (Char.ofNat n).isAlphanum = true → P (.ofNat n))
    (h : c.isAlphanum = true) : P c :=
  of_ascii (P := fun c => c.isAlphanum = true → P c) hP (ascii_of_isAlphanum h) h

theorem isAlphanum_toUpper (h : c.isAlphanum = true) : c.toUpper.isAlphanum = true :=
  of_isAlphanum (P := fun c => c.toUpper.isAlphanum = true) (by decide) h

theorem isAlphanum_toLower (h : c.isAlphanum = true) : c.toLower.isAlphanum = true :=
  of_isAlphanum (P := fun c => c.toLower.isAlphanum = true) (by decide) h

theorem isUpper_toUpper (h : c.isAlpha = true) : c.toUpper.isUpper = true :=
  of_isAlphanum (P := fun c => c.isAlpha = true → c.toUpper.isUpper = true) (by decide)
    (isAlphanum_of_isAlpha h) h

/-! ## Lowercase letters and digits -/

/-- A lowercase ASCII letter or a digit. -/
def IsSmall (c : Char) : Prop := c.isLower = true ∨ c.isDigit = true

instance (c : Char) : Decidable (IsSmall c) := inferInstanceAs (Decidable (_ ∨ _))

theorem IsSmall.isAlphanum (h : IsSmall c) : c.isAlphanum = true :=
  h.elim isAlphanum_of_isLower isAlphanum_of_isDigit

theorem IsSmall.ascii (h : IsSmall c) : c.toNat < 0x80 := ascii_of_isAlphanum h.isAlphanum

theorem IsSmall.toLower_eq (h : IsSmall c) : c.toLower = c :=
  of_isAlphanum (P := fun c => IsSmall c → c.toLower = c) (by decide) h.isAlphanum h

theorem IsSmall.toLower_toUpper (h : IsSmall c) : c.toUpper.toLower = c :=
  of_isAlphanum (P := fun c => IsSmall c → c.toUpper.toLower = c) (by decide) h.isAlphanum h

theorem IsSmall.isUpper_eq (h : IsSmall c) : c.isUpper = false :=
  of_isAlphanum (P := fun c => IsSmall c → c.isUpper = false) (by decide) h.isAlphanum h

theorem toUpper_of_isDigit (h : c.isDigit = true) : c.toUpper = c :=
  of_isAlphanum (P := fun c => c.isDigit = true → c.toUpper = c) (by decide)
    (isAlphanum_of_isDigit h) h

end SchemaHeaders.Text
