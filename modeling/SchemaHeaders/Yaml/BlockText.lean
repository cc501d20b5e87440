import SchemaHeaders.Text.Decimal
import SchemaHeaders.Yaml.Cell

/-!
# Block scalars

A block scalar is a header and the indented lines below it. `BlockHeader.ofLine?` reads the
header, `indentOf?` finds the indentation where the header does not give it, and `bodyOf?`
puts the lines together: a literal scalar keeps its line breaks, and in a folded one a
single break between two lines that do not begin with a blank stands for a space.
-/

namespace SchemaHeaders.Yaml

/-! ## Lines -/

/-- A line of a text with the break that ends it; the last line has none. -/
structure Line where
  text : List Char
  ending : Option Char
  deriving DecidableEq

namespace Line

/-- The number of cells of a line. -/
def size (l : Line) : Nat := l.text.length + l.ending.toList.length

/-- The lines of cells. -/
def ofCells : List Cell → List Line
  | [] => []
  | c :: cs =>
    if c.char = endChar then [⟨[], none⟩]
    else if isBreak c.char then ⟨[], some c.char⟩ :: ofCells cs
    else
      match ofCells cs with
      | [] => [⟨[c.char], none⟩]
      | l :: ls => { l with text := c.char :: l.text } :: ls

/-- The number of spaces that begin a line. -/
def spaces (l : Line) : Nat := (l.text.takeWhile (· == ' ')).length

/-- The number of spaces that begin a line, if no tab follows them. -/
def indent? (l : Line) : Option Nat :=
  if (l.text.drop l.spaces).head? = some '\t' then none else some l.spaces

end Line

/-! ## Headers -/

/-- What becomes of the line breaks at the end of a block scalar. -/
inductive Chomping where
  /-- none is kept -/
  | strip
  /-- that of the last line is kept -/
  | clip
  /-- all are kept -/
  | keep
  deriving DecidableEq

/-- The header of a block scalar. -/
structure BlockHeader where
  chomping : Chomping := .clip
  /-- the indentation beyond that of the block around it, if it is given -/
  increment : Option Nat := none
  deriving DecidableEq

namespace BlockHeader

/-- The chomping of a sign. -/
def chompingOf? : Char → Option Chomping
  | '+' => some .keep
  | '-' => some .strip
  | _ => none

/-- A header with one more sign, which is of a kind that it does not have yet. -/
def add? (h : BlockHeader) (c : Char) : Option BlockHeader :=
  match chompingOf? c with
  | some chomping => if h.chomping = .clip then some { h with chomping } else none
  | none =>
    match Text.digitValue? c with
    | some d =>
      if c.isDigit ∧ d ≠ 0 ∧ h.increment = none then some { h with increment := some d } else none
    | none => none

/-- The header that a line begins with. -/
def ofLine? (cs : List Char) : Option BlockHeader :=
  match cs with
  | [] => some {}
  | a :: cs =>
    match add? {} a with
    | none => if endsInComment (a :: cs) then some {} else none
    | some h =>
      match cs with
      | [] => some h
      | b :: ds =>
        match h.add? b with
        | none => if endsInComment (b :: ds) then some h else none
        | some h => if endsInComment ds then some h else none

end BlockHeader

/-! ## Lines of a scalar -/

/-- The indentation of the lines of a scalar, where no column before `least` may be theirs
and lines up to column `most` have been seen. -/
def indentOf? (least : Nat) (most : Nat) : List Line → Option Nat
  | [] => some (max most least)
  | l :: ls =>
    match l.indent? with
    | none => none
    | some n =>
      if n = l.text.length ∧ l.ending.isSome then indentOf? least (max most n) ls
      else some (max (max most n) least)

/-- The line breaks between two lines of a scalar and before its first line. -/
structure Joint where
  /-- the break that ended the line before -/
  first : Option Char := none
  /-- whether that line began with a blank -/
  afterBlank : Bool := false
  /-- the breaks of empty lines since then -/
  others : List Char := []
  deriving DecidableEq

/-- What line breaks stand for before a line. -/
def Joint.text (j : Joint) (literal : Bool) (line : List Char) : List Char :=
  if !literal ∧ j.first = some '\n' ∧ !j.afterBlank ∧ !line.head?.any isBlank then
    if j.others = [] then [' '] else j.others
  else j.first.toList ++ j.others

/-- What line breaks stand for at the end. -/
def Joint.chomped (j : Joint) : Chomping → List Char
  | .strip => []
  | .clip => j.first.toList
  | .keep => j.first.toList ++ j.others

/-- The text of a scalar from here on, whose lines are indented by `indent`, and its number
of cells. -/
def bodyOf? (literal : Bool) (chomping : Chomping) (indent : Nat) :
    Joint → List Line → Option (List Char × Nat)
  | j, [] => some (j.chomped chomping, 0)
  | j, l :: ls =>
    if indent ≤ l.spaces ∧ indent < l.text.length then
      let line := l.text.drop indent
      (fun (t, n) => (j.text literal line ++ line ++ t, l.size + n)) <$>
        bodyOf? literal chomping indent
          { first := l.ending, afterBlank := line.head?.any isBlank } ls
    else
      match l.indent? with
      | none => none
      | some n =>
        match l.ending with
        | some c =>
          if n = l.text.length then
            (fun (t, n) => (t, l.size + n)) <$>
              bodyOf? literal chomping indent { j with others := j.others ++ [c] } ls
          else some (j.chomped chomping, 0)
        | none => some (j.chomped chomping, 0)

/-- The text of a block scalar whose sign has been read, and its number of cells, within a
block whose parts begin at column `limit - 1`. -/
def blockAt? (literal : Bool) (limit : Nat) (cells : List Cell) : Option (List Char × Nat) :=
  match Line.ofCells cells with
  | [] => none
  | first :: lines =>
    match BlockHeader.ofLine? first.text with
    | none => none
    | some h =>
      let indent? := match h.increment with
        | some n => some (limit - 1 + n)
        | none => indentOf? (max 1 limit) 0 lines
      match indent? with
      | none => none
      | some indent =>
        (fun (t, n) => (t, first.size + n)) <$> bodyOf? literal h.chomping indent {} lines

end SchemaHeaders.Yaml
