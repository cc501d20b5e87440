import SchemaHeaders.Text.Decimal

/-!
# JSON tokens

`Token.scan` cuts a JSON text into tokens, as far as it is made of them. Each token says how
many characters it takes, so the scan goes through the text once. A string that escapes half
of a surrogate pair is a token without content: it stands for no text, but may be passed
over. A number that is written as an integer carries its value, any other number none.
-/

namespace SchemaHeaders.Json

/-- A token of a JSON text. -/
inductive Token where
  | openBrace
  | closeBrace
  | openBracket
  | closeBracket
  | colon
  | comma
  | null
  | truth (value : Bool)
  | number (integer : Option Int)
  | text (content : Option String)
  deriving DecidableEq

/-! ## Strings -/

/-- A unit of a string: a character, or a unit of 16 bits that is written as an escape. -/
inductive TextUnit where
  | char (c : Char)
  | escaped (unit : Nat)
  deriving DecidableEq

/-- The characters of a string, if every half of a surrogate pair meets the other. -/
def assemble : List TextUnit → Option (List Char)
  | [] => some []
  | .char c :: us => (c :: ·) <$> assemble us
  | .escaped u :: us =>
    if 0xDC00 ≤ u ∧ u ≤ 0xDFFF then none
    else if 0xD800 ≤ u ∧ u ≤ 0xDBFF then
      match us with
      | .escaped v :: us =>
        if 0xDC00 ≤ v ∧ v ≤ 0xDFFF then
          (Char.ofNat (0x10000 + (u - 0xD800) * 0x400 + (v - 0xDC00)) :: ·) <$> assemble us
        else none
      | _ => none
    else (Char.ofNat u :: ·) <$> assemble us

/-- The character that a backslash and a letter stand for. -/
def shortEscape? : Char → Option Char
  | '"' => some '"'
  | '\\' => some '\\'
  | '/' => some '/'
  | 'b' => some '\x08'
  | 'f' => some '\x0c'
  | 'n' => some '\n'
  | 'r' => some '\r'
  | 't' => some '\t'
  | _ => none

/-- The units of a string whose opening quote has been read, and the number of characters
up to its closing quote, which is counted. -/
def unitsAt? : List Char → Option (List TextUnit × Nat)
  | [] => none
  | '"' :: _ => some ([], 1)
  | '\\' :: 'u' :: a :: b :: c :: d :: cs =>
    match Text.value? 16 [a, b, c, d], unitsAt? cs with
    | some u, some (us, n) => some (.escaped u :: us, n + 6)
    | _, _ => none
  | '\\' :: e :: cs =>
    match shortEscape? e, unitsAt? cs with
    | some c, some (us, n) => some (.char c :: us, n + 2)
    | _, _ => none
  | c :: cs =>
    if c.toNat < 0x20 ∨ c = '\\' then none
    else
      match unitsAt? cs with
      | some (us, n) => some (.char c :: us, n + 1)
      | none => none

/-! ## Numbers -/

/-- The number of characters of a fraction, if one begins here and is well formed; zero if
none begins here. -/
def fractionLength? : List Char → Option Nat
  | '.' :: cs =>
    let n := (cs.takeWhile Char.isDigit).length
    if n = 0 then none else some (n + 1)
  | _ => some 0

/-- The number of characters of an exponent, if one begins here and is well formed; zero if
none begins here. -/
def exponentLength? : List Char → Option Nat
  | e :: cs =>
    if e = 'e' ∨ e = 'E' then
      let sign := match cs with
        | '+' :: _ | '-' :: _ => 1
        | _ => 0
      let n := ((cs.drop sign).takeWhile Char.isDigit).length
      if n = 0 then none else some (n + sign + 1)
    else some 0
  | [] => some 0

/-- The integer of digits after a sign. A negative zero is no integer. -/
def integer? (negative : Bool) (digits : List Char) : Option Int :=
  match Text.value? 10 digits with
  | some n => if negative then if n = 0 then none else some (-n) else some n
  | none => none

/-- A number without its sign, and its number of characters. -/
def numberAt? (negative : Bool) (cs : List Char) : Option (Token × Nat) :=
  let ds := cs.takeWhile Char.isDigit
  if ds = [] ∨ (ds.head? = some '0' ∧ ds ≠ ['0']) then none
  else
    match fractionLength? (cs.drop ds.length) with
    | none => none
    | some f =>
      match exponentLength? (cs.drop (ds.length + f)) with
      | none => none
      | some e =>
        let value := if f = 0 ∧ e = 0 then integer? negative ds else none
        some (.number value, ds.length + f + e)

/-! ## The scan -/

/-- The token that begins with a character before others, and how many of those it takes. -/
def tokenAt? (c : Char) (cs : List Char) : Option (Token × Nat) :=
  match c, cs with
  | '{', _ => some (.openBrace, 0)
  | '}', _ => some (.closeBrace, 0)
  | '[', _ => some (.openBracket, 0)
  | ']', _ => some (.closeBracket, 0)
  | ':', _ => some (.colon, 0)
  | ',', _ => some (.comma, 0)
  | 'n', 'u' :: 'l' :: 'l' :: _ => some (.null, 3)
  | 't', 'r' :: 'u' :: 'e' :: _ => some (.truth true, 3)
  | 'f', 'a' :: 'l' :: 's' :: 'e' :: _ => some (.truth false, 4)
  | '"', cs =>
    match unitsAt? cs with
    | some (us, n) => some (.text ((assemble us).map String.ofList), n)
    | none => none
  | '-', cs =>
    match numberAt? true cs with
    | some (t, n) => some (t, n)
    | none => none
  | c, cs =>
    if c.isDigit then
      match numberAt? false (c :: cs) with
      | some (t, n) => some (t, n - 1)
      | none => none
    else none

/-- Whether a character may stand between tokens. -/
def isSpace (c : Char) : Bool := c == ' ' || c == '\t' || c == '\n' || c == '\r'

/-- The tokens of a text, of which so many characters belong to the token before, and
whether they make up the whole of it. -/
def Token.scanFrom : Nat → List Char → List Token × Bool
  | _, [] => ([], true)
  | n + 1, _ :: cs => scanFrom n cs
  | 0, c :: cs =>
    if isSpace c then scanFrom 0 cs
    else
      match tokenAt? c cs with
      | none => ([], false)
      | some (t, n) =>
        let (ts, whole) := scanFrom n cs
        (t :: ts, whole)

/-- The tokens of a text, and whether they make up the whole of it. -/
def Token.scan (text : List Char) : List Token × Bool := scanFrom 0 text

end SchemaHeaders.Json
