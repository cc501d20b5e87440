import SchemaHeaders.Document.Node
import SchemaHeaders.Text.Decimal
import SchemaHeaders.Yaml.Token

/-!
# YAML scalars

Every scalar may be taken for a text. What else it may be taken for depends on how it is
written: only plain scalars, and literal ones that are tagged as integers, are numbers, and
only plain scalars stand for a value that is absent. `scalarOf` settles this.
-/

namespace SchemaHeaders.Yaml

open Document (Scalar Node)

/-- What the handle of two exclamation marks stands for. -/
def coreAddress : String := "tag:yaml.org,2002:"

/-- The tag of integers. -/
def integerTag : String := coreAddress ++ "int"

/-- The tag of absent values. -/
def nullTag : String := coreAddress ++ "null"

/-! ## Numbers -/

/-- The number of digits after the mark of their base. -/
def basedNumber? : List Char → Option Nat
  | '0' :: 'x' :: cs => Text.value? 16 cs
  | '0' :: 'o' :: cs => Text.value? 8 cs
  | '0' :: 'b' :: cs => Text.value? 2 cs
  | _ => none

/-- The number of decimal digits without leading zeros. -/
def decimalNumber? (cs : List Char) : Option Nat :=
  if cs.head? = some '0' ∧ cs.length > 1 then none else Text.value? 10 cs

/-- A number without a sign. -/
def number? (cs : List Char) : Option Nat :=
  match basedNumber? cs with
  | some n => some n
  | none => decimalNumber? cs

/-- A number that may have a plus sign. -/
def natural? : List Char → Option Nat
  | '+' :: cs => number? cs
  | cs => number? cs

/-- A number that may have a sign. -/
def integer? : List Char → Option Int
  | '-' :: cs => (number? cs).map fun n => -(n : Int)
  | cs => (natural? cs).map Int.ofNat

/-! ## Scalars -/

/-- Whether a text is a word for an absent value. -/
def isNullWord (text : String) : Bool := ["~", "null", "Null", "NULL"].contains text

/-- Whether a scalar may be taken for a number. -/
def mayBeNumber (style : Style) (tag : Option String) : Bool :=
  style == .plain || (style == .literal && tag == some integerTag)

/-- What a scalar may be taken for, which is written in a style and has a tag or none. -/
def scalarOf (style : Style) (tag : Option String) (text : String) : Scalar :=
  let plain := style == .plain
  let number := mayBeNumber style tag
  let blank := plain && text.isEmpty
  { text := some text
    integer := if number then integer? text.toList else none
    natural := if number then natural? text.toList else none
    absent := plain && (isNullWord text && (tag == none || tag == some nullTag) ||
      (blank && tag == none))
    blankList := blank
    blankTable := blank
    optional := !(plain && tag == some nullTag && !isNullWord text) }

/-- The scalar of a place where nothing is written. -/
def blankScalar : Scalar := scalarOf .plain none ""

end SchemaHeaders.Yaml
