import SchemaHeaders.Text.CodePoint
import SchemaHeaders.Yaml.Cell

/-!
# Folded text

In plain and quoted scalars a single line break stands for a space. `Gap` holds the blanks
and breaks since the last word of such a scalar, and `Gap.text` is what they stand for.
`plainAt?` and `quotedAt?` read the two kinds of scalar; both count the cells they take.
-/

namespace SchemaHeaders.Yaml

/-! ## Gaps -/

/-- The blanks and line breaks since the last word. -/
inductive Gap where
  | none
  /-- blanks on one line, newest first -/
  | blanks (text : List Char)
  /-- line breaks: the first, unless it is escaped, and the others, newest first -/
  | breaks (first : Option Char) (others : List Char)
  deriving DecidableEq

namespace Gap

/-- What a gap stands for. -/
def text : Gap → List Char
  | none => []
  | blanks text => text.reverse
  | breaks (some '\n') [] => [' ']
  | breaks (some '\n') others => others.reverse
  | breaks first others => first.toList ++ others.reverse

/-- A gap with one more blank; next to a line break it says nothing. -/
def blank (c : Char) : Gap → Gap
  | none => blanks [c]
  | blanks text => blanks (c :: text)
  | breaks first others => breaks first others

/-- A gap with one more line break. -/
def lineBreak (c : Char) : Gap → Gap
  | breaks first others => breaks first (c :: others)
  | _ => breaks (some c) []

/-- Whether a gap has a line break. -/
def isBroken : Gap → Bool
  | breaks _ _ => true
  | _ => false

end Gap

/-! ## Plain scalars -/

/-- Whether a plain scalar ends before a cell that is no gap, where `limit` is the least
column of a line that goes on in a block. -/
def endsPlain (limit : Nat) (flow : Bool) (gap : Gap) (c : Cell) (cs : List Cell) : Bool :=
  c.char == endChar ||
  (gap ≠ .none &&
    ((!flow && c.mark.column < limit) || Cell.atBoundary (c :: cs) || c.char == '#')) ||
  (c.char == ':' && isGap (Cell.next cs)) ||
  (flow && ",[]\x7b\x7d".toList.contains c.char)

/-- The text of a plain scalar from here on after a gap, its number of cells, and whether it
ends after a line break. -/
def plainAt? (limit : Nat) (flow : Bool) : Gap → List Cell → Option (List Char × Nat × Bool)
  | _, [] => none
  | gap, c :: cs =>
    if isBlank c.char then
      if gap.isBroken ∧ c.char = '\t' ∧ c.mark.column < limit then none
      else (fun (t, n, b) => (t, n + 1, b)) <$> plainAt? limit flow (gap.blank c.char) cs
    else if isBreak c.char then
      (fun (t, n, b) => (t, n + 1, b)) <$> plainAt? limit flow (gap.lineBreak c.char) cs
    else if endsPlain limit flow gap c cs then some ([], 0, gap.isBroken)
    else if flow ∧ c.char = ':' ∧ ",?[]\x7b\x7d".toList.contains (Cell.next cs) then none
    else
      (fun (t, n, b) => (gap.text ++ c.char :: t, n + 1, b)) <$> plainAt? limit flow .none cs

/-! ## Quoted scalars -/

/-- The character that a backslash and a character stand for. -/
def shortEscape? : Char → Option Char
  | '0' => some '\x00'
  | 'a' => some '\x07'
  | 'b' => some '\x08'
  | 't' => some '\t'
  | '\t' => some '\t'
  | 'n' => some '\n'
  | 'v' => some '\x0b'
  | 'f' => some '\x0c'
  | 'r' => some '\r'
  | 'e' => some '\x1b'
  | ' ' => some ' '
  | '"' => some '"'
  | '/' => some '/'
  | '\\' => some '\\'
  | 'N' => some '\x85'
  | '_' => some '\u00a0'
  | 'L' => some '\u2028'
  | 'P' => some '\u2029'
  | _ => none

/-- The character that an escape after a backslash stands for, and the number of characters
of the escape. -/
def escapeAt? : List Char → Option (Char × Nat)
  | 'x' :: a :: b :: _ => (·, 3) <$> Text.charOfHex? [a, b]
  | 'u' :: a :: b :: c :: d :: _ => (·, 5) <$> Text.charOfHex? [a, b, c, d]
  | 'U' :: a :: b :: c :: d :: e :: f :: g :: h :: _ =>
    (·, 9) <$> Text.charOfHex? [a, b, c, d, e, f, g, h]
  | e :: _ => (·, 1) <$> shortEscape? e
  | [] => none

/-- A part of a quoted scalar that is no gap. -/
inductive QuotedPart where
  /-- the quote that ends the scalar -/
  | closing
  /-- a backslash that escapes the line break after it -/
  | escapedBreak
  /-- a character, and the number of cells that follow its first -/
  | char (c : Char) (others : Nat)
  deriving DecidableEq

/-- The part that begins with a character before others. -/
def quotedPartAt? (quote : Char) (c : Char) (cs : List Cell) : Option QuotedPart :=
  if c = quote then
    if quote = '\'' ∧ Cell.next cs = quote then some (.char quote 1) else some .closing
  else if quote = '"' ∧ c = '\\' then
    if isBreak (Cell.next cs) then some .escapedBreak
    else (fun (c, n) => .char c n) <$> escapeAt? ((cs.take 9).map (·.char))
  else some (.char c 0)

/-- The text of a quoted scalar from here on after a gap, where so many cells have been dealt
with, and the number of cells up to the closing quote, which is counted. -/
def quotedAt? (quote : Char) : Nat → Gap → List Cell → Option (List Char × Nat)
  | _, _, [] => none
  | n + 1, gap, _ :: cs => (fun (t, k) => (t, k + 1)) <$> quotedAt? quote n gap cs
  | 0, gap, c :: cs =>
    if isBlank c.char then
      (fun (t, k) => (t, k + 1)) <$> quotedAt? quote 0 (gap.blank c.char) cs
    else if isBreak c.char then
      (fun (t, k) => (t, k + 1)) <$> quotedAt? quote 0 (gap.lineBreak c.char) cs
    else if c.char = endChar ∨ Cell.atBoundary (c :: cs) then none
    else
      match quotedPartAt? quote c.char cs with
      | none => none
      | some .closing => some (gap.text, 1)
      | some .escapedBreak =>
        (fun (t, k) => (gap.text ++ t, k + 1)) <$> quotedAt? quote 1 (.breaks none []) cs
      | some (.char a n) =>
        (fun (t, k) => (gap.text ++ a :: t, k + 1)) <$> quotedAt? quote n .none cs

end SchemaHeaders.Yaml
