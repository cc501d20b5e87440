import SchemaHeaders.Text.Alphabetic
import SchemaHeaders.Text.CaseMap
import SchemaHeaders.Text.Cased
import SchemaHeaders.Text.Split

/-!
# Names in generated code

Names in a schema are words joined by underscores. Each place of a name in a header has
a case of its own: `pascalCase` for types and enum members, `camelCase` for struct members
(`NameRole.apply`). Both put every word but the first of a camel case name in title case,
where a letter is upper case if it begins the word or follows a character that is no
letter (`titleChars`), and join the words without a separator. The first word of a camel
case name is put in lower case as a whole, with the final form of a sigma that ends it.
-/

namespace SchemaHeaders

namespace Naming

open Text

/-! ## Words -/

/-- The first word of a name, and the words that follow an underscore each. -/
def words (name : List Char) : List Char × List (List Char) := pieces '_' name

/-- A word in title case, where `afterLetter` says whether a letter stands before it. -/
def titleChars : Bool → List Char → List Char
  | _, [] => []
  | afterLetter, c :: cs =>
    (if afterLetter then lower c else upper c) ++ titleChars (isAlphabetic c) cs

/-- Whether the first character that case rules do not look through is a cased letter. -/
def meetsCased (cs : List Char) : Bool :=
  match cs.dropWhile isCaseIgnorable with
  | [] => false
  | c :: _ => isCased c

/-- A word in lower case, after the characters `before` (nearest first). A capital sigma
that ends a word, with a cased letter before it and none after it, takes its final form. -/
def lowerChars (before : List Char) : List Char → List Char
  | [] => []
  | c :: cs =>
    (if c = 'Σ' then [if meetsCased before && !meetsCased cs then 'ς' else 'σ'] else lower c) ++
      lowerChars (c :: before) cs

/-- The words of a name, all in title case and joined. -/
def pascalChars (name : List Char) : List Char :=
  let (w, ws) := words name
  titleChars false w ++ ws.flatMap (titleChars false)

/-- The words of a name joined, the first in lower case and the others in title case. -/
def camelChars (name : List Char) : List Char :=
  let (w, ws) := words name
  lowerChars [] w ++ ws.flatMap (titleChars false)

end Naming

/-! ## Names -/

/-- A word in title case. -/
def titleCase (word : String) : String := String.ofList (Naming.titleChars false word.toList)

/-- A name in Pascal case: `field_id` becomes `FieldId`. -/
def pascalCase (name : String) : String := String.ofList (Naming.pascalChars name.toList)

/-- A name in camel case: `field_id` becomes `fieldId`. -/
def camelCase (name : String) : String := String.ofList (Naming.camelChars name.toList)

/-- A text in upper case. -/
def upperCase (text : String) : String := String.ofList (text.toList.flatMap Text.upper)

/-- The places of a name in a header. -/
inductive NameRole where
  /-- the name of an enum or a struct -/
  | typeName
  /-- a member of an enum -/
  | enumMember
  /-- a member of a struct -/
  | structMember
  /-- a word that is written as it stands -/
  | verbatim
  deriving DecidableEq, Repr

/-- A name as its place wants it. -/
def NameRole.apply (role : NameRole) (name : String) : String :=
  match role with
  | .typeName | .enumMember => pascalCase name
  | .structMember => camelCase name
  | .verbatim => name

end SchemaHeaders
