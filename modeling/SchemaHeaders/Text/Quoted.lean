import SchemaHeaders.Text.Printable

/-!
# Quoted text

`quoted` writes a text between double quotes such that each character of it can be told:
what has no sign of its own, or would join the character before it, is written by its code.
-/

namespace SchemaHeaders.Text

/-- The hexadecimal digits of a number, without leading zeros. -/
def hexDigits (n : Nat) : List Char := Nat.toDigits 16 n

/-- A character as it is written between quotes. -/
def quoteChar (c : Char) : List Char :=
  match c with
  | '\x00' => ['\\', '0']
  | '\t' => ['\\', 't']
  | '\n' => ['\\', 'n']
  | '\r' => ['\\', 'r']
  | '"' => ['\\', '"']
  | '\\' => ['\\', '\\']
  | c =>
    if isPrintable c && !extendsGrapheme c then [c]
    else ['\\', 'u', '{'] ++ hexDigits c.toNat ++ ['}']

/-- A text between double quotes. -/
def quoted (text : String) : String :=
  String.ofList ('"' :: text.toList.flatMap quoteChar ++ ['"'])

/-- A path between double quotes, in which single quotes are marked as well. -/
def quotedPath (text : String) : String :=
  String.ofList ('"' ::
    text.toList.flatMap (fun c => if c = '\'' then ['\\', '\''] else quoteChar c) ++ ['"'])

/-- A list of quoted texts. -/
def quotedList (texts : List String) : String :=
  "[" ++ String.intercalate ", " (texts.map quoted) ++ "]"

end SchemaHeaders.Text
