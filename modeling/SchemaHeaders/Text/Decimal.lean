/-!
# Decimal text

`digits n` is the shortest decimal text of a number and `signed z` that of an integer, with
a minus sign if it is negative. `value?` reads digits back in any base up to sixteen, and
`value?_digits` says that the decimal text of a number reads back as the number.
-/

namespace SchemaHeaders.Text

/-- The character of a digit below sixteen. -/
def digitChar (d : Nat) : Char :=
  if d < 10 then Char.ofNat ('0'.toNat + d) else Char.ofNat ('a'.toNat + (d - 10))

/-- The number that a digit stands for in base sixteen or below. -/
def digitValue? (c : Char) : Option Nat :=
  if '0' ≤ c ∧ c ≤ '9' then some (c.toNat - '0'.toNat)
  else if 'a' ≤ c ∧ c ≤ 'f' then some (c.toNat - 'a'.toNat + 10)
  else if 'A' ≤ c ∧ c ≤ 'F' then some (c.toNat - 'A'.toNat + 10)
  else none

/-- Whether a character is a digit of a base. -/
def isDigitOf (base : Nat) (c : Char) : Bool :=
  match digitValue? c with
  | some d => d < base
  | none => false

/-- The decimal digits of a number, without leading zeros. -/
def digits (n : Nat) : List Char :=
  if n < 10 then [digitChar n] else digits (n / 10) ++ [digitChar (n % 10)]

/-- The decimal text of an integer. -/
def signed (z : Int) : List Char :=
  if z < 0 then '-' :: digits z.natAbs else digits z.natAbs

/-- The number that digits stand for, read on from `acc`; `none` at the first character
that is no digit of the base. -/
def valueFrom? (base : Nat) : Nat → List Char → Option Nat
  | acc, [] => some acc
  | acc, c :: cs =>
    match digitValue? c with
    | some d => if d < base then valueFrom? base (acc * base + d) cs else none
    | none => none

/-- The number that one or more digits of a base stand for. -/
def value? (base : Nat) : List Char → Option Nat
  | [] => none
  | cs => valueFrom? base 0 cs

theorem digitValue?_digitChar : ∀ d < 10, digitValue? (digitChar d) = some d := by decide

theorem valueFrom?_append (base acc : Nat) (cs ds : List Char) :
    valueFrom? base acc (cs ++ ds) = (valueFrom? base acc cs).bind (valueFrom? base · ds) := by
  induction cs generalizing acc with
  | nil => rfl
  | cons c cs ih =>
    simp only [List.cons_append, valueFrom?]
    cases digitValue? c with
    | none => rfl
    | some d =>
      by_cases hd : d < base
      · simp [hd, ih]
      · simp [hd]

theorem valueFrom?_digits (n : Nat) : valueFrom? 10 0 (digits n) = some n := by
  rw [digits]
  split
  case isTrue h => simp [valueFrom?, digitValue?_digitChar n h, h]
  case isFalse h =>
    have hm : n % 10 < 10 := Nat.mod_lt _ (by decide)
    rw [valueFrom?_append, valueFrom?_digits (n / 10)]
    simp only [Option.bind_some, valueFrom?, digitValue?_digitChar _ hm, hm, if_true]
    congr 1
    omega
termination_by n

theorem digitChar_eq : ∀ d < 10, digitChar d = d.digitChar := by decide

/-- The decimal text of a number is its usual one. -/
theorem digits_eq_toDigits (n : Nat) : digits n = Nat.toDigits 10 n := by
  rw [digits, Nat.toDigits_eq_if (by decide)]
  split
  case isTrue h => rw [digitChar_eq n h]
  case isFalse h => rw [digits_eq_toDigits (n / 10), digitChar_eq _ (Nat.mod_lt _ (by decide))]
termination_by n

theorem digits_ne_nil (n : Nat) : digits n ≠ [] := by
  rw [digits]
  split <;> simp

/-- The decimal text of a number reads back as the number. -/
theorem value?_digits (n : Nat) : value? 10 (digits n) = some n := by
  unfold value?
  split
  case h_1 h => exact absurd h (digits_ne_nil n)
  case h_2 => exact valueFrom?_digits n

end SchemaHeaders.Text
