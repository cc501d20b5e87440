/-!
# Characters of a YAML text with their marks

Where a character stands decides what it means in YAML, so a text is read as a list of
cells: characters with their marks. The spellings of a line break become one (only the line
and the paragraph separator stay what they are), and the end of the text is a cell of its
own, so that something follows every character.
-/

namespace SchemaHeaders.Yaml

/-! ## Characters -/

/-- The character of the last cell, which no text holds. -/
def endChar : Char := '\x00'

/-- Whether a character may stand in a text. -/
def isAllowed (c : Char) : Bool :=
  let n := c.toNat
  c == '\t' || c == '\n' || c == '\r' || (0x20 ≤ n && n ≤ 0x7E) || n == 0x85 ||
    (0xA0 ≤ n && n ≤ 0xFFFD) || 0x10000 ≤ n

/-- Whether a character is a space or a tab. -/
def isBlank (c : Char) : Bool := c == ' ' || c == '\t'

/-- Whether the character of a cell ends a line. -/
def isBreak (c : Char) : Bool := c == '\n' || c == '\u2028' || c == '\u2029'

/-- Whether a character separates words: a blank, a line break or the end. -/
def isGap (c : Char) : Bool := isBlank c || isBreak c || c == endChar

/-- Whether a line ends before a character. -/
def endsLine (c : Char) : Bool := isBreak c || c == endChar

/-- Whether a character may stand in the name of an anchor or a directive. -/
def isNameChar (c : Char) : Bool := c.isAlphanum || c == '_' || c == '-'

/-- Whether what is left of a line is blank, or a comment after blanks. -/
def endsInComment (cs : List Char) : Bool :=
  match cs.dropWhile isBlank with
  | [] => true
  | c :: _ => c == '#'

/-! ## Marks and cells -/

/-- A place in a text. -/
structure Mark where
  line : Nat
  column : Nat
  /-- the number of characters before it -/
  index : Nat
  deriving DecidableEq

/-- The mark after a character of a line. -/
def Mark.nextColumn (m : Mark) : Mark := ⟨m.line, m.column + 1, m.index + 1⟩

/-- The mark after a line break of so many characters. -/
def Mark.nextLine (m : Mark) (width : Nat) : Mark := ⟨m.line + 1, 0, m.index + width⟩

/-- A character with its mark. -/
structure Cell where
  char : Char
  mark : Mark
  deriving DecidableEq

namespace Cell

/-- The cells of a text that begins at a mark. -/
def scanFrom (m : Mark) : List Char → List Cell
  | [] => [⟨endChar, m⟩]
  | '\r' :: '\n' :: cs => ⟨'\n', m⟩ :: scanFrom (m.nextLine 2) cs
  | c :: cs =>
    if c = '\n' ∨ c = '\r' ∨ c = '\x85' then ⟨'\n', m⟩ :: scanFrom (m.nextLine 1) cs
    else if isBreak c then ⟨c, m⟩ :: scanFrom (m.nextLine 1) cs
    else ⟨c, m⟩ :: scanFrom m.nextColumn cs

/-- The cells of a text. -/
def scan (text : List Char) : List Cell := scanFrom ⟨0, 0, 0⟩ text

/-- The character that comes next. -/
def next : List Cell → Char
  | [] => endChar
  | c :: _ => c.char

/-- Whether a mark between documents begins here: three hyphens or three dots alone at the
beginning of a line. -/
def atMarker (sign : Char) : List Cell → Bool
  | a :: b :: c :: cs =>
    a.mark.column == 0 && a.char == sign && b.char == sign && c.char == sign && isGap (next cs)
  | _ => false

/-- Whether one document ends or another begins here. -/
def atBoundary (cells : List Cell) : Bool := atMarker '-' cells || atMarker '.' cells

end Cell

end SchemaHeaders.Yaml
