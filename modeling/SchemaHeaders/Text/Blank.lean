import SchemaHeaders.Text.Ranges

/-!
# Blank characters

`isBlank` is the White_Space property of the Unicode standard; a text of such characters
alone says nothing (`isBlankText`).
-/

namespace SchemaHeaders.Text

/-- The white space characters. -/
def blankRanges : Ranges := [
    (0x9, 0xD), (0x20, 0x20), (0x85, 0x85), (0xA0, 0xA0), (0x1680, 0x1680),
    (0x2000, 0x200A), (0x2028, 0x2029), (0x202F, 0x202F), (0x205F, 0x205F), (0x3000, 0x3000)]

/-- Whether a character is white space. -/
def isBlank (c : Char) : Bool := blankRanges.has c

/-- Whether a text holds white space alone. -/
def isBlankText (text : List Char) : Bool := text.all isBlank

end SchemaHeaders.Text
