import SchemaHeaders.Text.Decimal
import SchemaHeaders.Text.Split
import SchemaHeaders.Toml.Table

/-!
# TOML scalars

`Value.ofRun?` is the value of a bare run: a truth value, a number, or a date and time.
Digits may be grouped by underscores, each between two digits. Decimal numbers have no
leading zeros. A float whose nearest double is infinite is `overflow`.
-/

namespace SchemaHeaders.Toml

/-! ## Numbers -/

/-- The digits of a base without the underscores between them. -/
def ungroup? (base : Nat) : List Char → Option (List Char)
  | [] => none
  | c :: cs =>
    if Text.isDigitOf base c then
      match cs with
      | [] => some [c]
      | '_' :: ds => (c :: ·) <$> ungroup? base ds
      | ds => (c :: ·) <$> ungroup? base ds
    else none

/-- Decimal digits without a leading zero. -/
def wholePart? (cs : List Char) : Option (List Char) :=
  match ungroup? 10 cs with
  | some ds => if ds.head? = some '0' ∧ ds.length > 1 then none else some ds
  | none => none

/-- Whether a text begins with a minus sign, and the text without its sign. -/
def unsigned : List Char → Bool × List Char
  | '+' :: cs => (false, cs)
  | '-' :: cs => (true, cs)
  | cs => (false, cs)

/-- An integer in base sixteen, eight or two, after its mark. -/
def basedInteger? : List Char → Option Int
  | '0' :: 'x' :: cs => ((ungroup? 16 cs).bind (Text.value? 16)).map Int.ofNat
  | '0' :: 'o' :: cs => ((ungroup? 8 cs).bind (Text.value? 8)).map Int.ofNat
  | '0' :: 'b' :: cs => ((ungroup? 2 cs).bind (Text.value? 2)).map Int.ofNat
  | _ => none

/-- A decimal integer. -/
def decimalInteger? (cs : List Char) : Option Int :=
  let (negative, cs) := unsigned cs
  match (wholePart? cs).bind (Text.value? 10) with
  | some n => some (if negative then -n else n)
  | none => none

/-- The bound from which on a number rounds to an infinite double. -/
def doubleBound : Nat := Nat.pow 2 1024 - Nat.pow 2 970

/-- Whether `digits * 10 ^ exponent` rounds to an infinite double. -/
def overflows (digits : Nat) (exponent : Int) : Bool :=
  if digits = 0 then false
  else
    let size : Int := (Text.digits digits).length + exponent
    if size ≤ 308 then false
    else if size > 310 then true
    else if 0 ≤ exponent then doubleBound ≤ digits * Nat.pow 10 exponent.toNat
    else doubleBound * Nat.pow 10 (-exponent).toNat ≤ digits

/-- The digits after the point of a number, none if it has no point. -/
def fraction? : List (List Char) → Option (List Char)
  | [] => some []
  | [cs] => ungroup? 10 cs
  | _ => none

/-- The exponent of a number, zero if it has none. -/
def exponent? : List (List Char) → Option Int
  | [] => some 0
  | [cs] =>
    let (negative, cs) := unsigned cs
    ((ungroup? 10 cs).bind (Text.value? 10)).map fun n => if negative then -(n : Int) else n
  | _ => none

/-- A number with a fraction, an exponent or both. -/
def float? (cs : List Char) : Option Value :=
  let (mantissa, exponents) := Text.pieces 'e' (cs.map fun c => if c = 'E' then 'e' else c)
  let (front, fractions) := Text.pieces '.' (unsigned mantissa).2
  if exponents = [] ∧ fractions = [] then none
  else
    match wholePart? front, fraction? fractions, exponent? exponents with
    | some whole, some fraction, some exponent =>
      match Text.value? 10 (whole ++ fraction) with
      | some n => some (if overflows n (exponent - fraction.length) then .overflow else .plain)
      | none => none
    | _, _, _ => none

/-! ## Dates and times -/

/-- The number that so many decimal digits stand for. -/
def fixed? (width : Nat) (cs : List Char) : Option Nat :=
  if cs.length = width ∧ cs.all Char.isDigit then Text.value? 10 cs else none

/-- The number of days of a month. -/
def daysIn (year month : Nat) : Nat :=
  if month = 2 then
    if year % 4 = 0 ∧ (year % 100 ≠ 0 ∨ year % 400 = 0) then 29 else 28
  else if month = 4 ∨ month = 6 ∨ month = 9 ∨ month = 11 then 30
  else 31

/-- Whether a text is a date. -/
def isDateText (cs : List Char) : Bool :=
  match Text.pieces '-' cs with
  | (y, [m, d]) =>
    match fixed? 4 y, fixed? 2 m, fixed? 2 d with
    | some y, some m, some d => 1 ≤ m && m ≤ 12 && 1 ≤ d && d ≤ daysIn y m
    | _, _, _ => false
  | _ => false

/-- Whether a text is a number of seconds, with or without a fraction. -/
def isSecondText (cs : List Char) : Bool :=
  match Text.pieces '.' cs with
  | (s, []) => (fixed? 2 s).any (· ≤ 60)
  | (s, [f]) => (fixed? 2 s).any (· ≤ 60) && f ≠ [] && f.all Char.isDigit
  | _ => false

/-- Whether two texts are an hour and a minute. -/
def isHourMinute (h m : List Char) : Bool := (fixed? 2 h).any (· < 24) && (fixed? 2 m).any (· < 60)

/-- Whether a text is a time of day; it may leave out the seconds. -/
def isTimeText (cs : List Char) : Bool :=
  match Text.pieces ':' cs with
  | (h, [m]) => isHourMinute h m
  | (h, [m, s]) => isHourMinute h m && isSecondText s
  | _ => false

/-- Whether a text is a time of day, with or without its offset from universal time. -/
def isZonedTimeText (cs : List Char) : Bool :=
  let time := cs.takeWhile fun c => c.isDigit || c == ':' || c == '.'
  isTimeText time &&
    match cs.drop time.length with
    | [] => true
    | [z] => z == 'Z' || z == 'z'
    | sign :: offset =>
      (sign == '+' || sign == '-') &&
        match Text.pieces ':' offset with
        | (h, [m]) => isHourMinute h m
        | _ => false

/-- Whether a text is a date, a time, or a date and a time. -/
def isMoment (cs : List Char) : Bool :=
  isDateText cs || isTimeText cs ||
    match cs.drop 10 with
    | t :: time =>
      (t == 'T' || t == 't' || t == ' ') && isDateText (cs.take 10) && isZonedTimeText time
    | [] => false

/-! ## Values -/

/-- Whether a text is one of the words for a value. -/
def isWord (cs : List Char) : Bool :=
  ["true", "false", "inf", "+inf", "-inf", "nan", "+nan", "-nan"].any (·.toList == cs)

/-- The value of a bare run. -/
def Value.ofRun? (cs : List Char) : Option Value :=
  if isWord cs then some .plain
  else if isMoment cs then some .moment
  else
    match basedInteger? cs, decimalInteger? cs with
    | some z, _ => some (.integer z)
    | none, some z => some (.integer z)
    | none, none => float? cs

end SchemaHeaders.Toml
