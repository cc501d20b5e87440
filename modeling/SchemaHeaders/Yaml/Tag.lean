import SchemaHeaders.Text.Decimal
import SchemaHeaders.Yaml.Cell

/-!
# Tags and directives

A tag is written as a handle and a suffix (`TagName`); the directives before a document say
what its handles stand for. The functions here read tags and directives from the characters
after their first sign, and say how many of those they take.
-/

namespace SchemaHeaders.Yaml

/-! ## Addresses -/

/-- Whether a character may stand in an address, where `wide` ones also have brackets and
commas. -/
def isAddressChar (wide : Bool) (c : Char) : Bool :=
  isNameChar c || ";/?:@&=+$.!~*'()".toList.contains c || (wide && ",[]".toList.contains c)

/-- The number of octets of a character whose first octet is given. -/
def octetCount? (octet : Nat) : Option Nat :=
  if octet < 0x80 then some 1
  else if octet / 0x20 = 0b110 then some 2
  else if octet / 0x10 = 0b1110 then some 3
  else if octet / 0x8 = 0b11110 then some 4
  else none

/-- The address that begins here, of whose last character so many octets are still to come,
and its number of characters. Octets are escaped by a percent sign; all characters beyond
ASCII are read as one, since no known tag has any. -/
def addressAt? (wide : Bool) : Nat → List Char → Option (List Char × Nat)
  | left, '%' :: a :: b :: cs =>
    match Text.value? 16 [a, b] with
    | none => none
    | some octet =>
      match left with
      | 0 =>
        match octetCount? octet with
        | none => none
        | some n =>
          let c := if n = 1 then Char.ofNat octet else '\ufffd'
          (fun (t, k) => (c :: t, k + 3)) <$> addressAt? wide (n - 1) cs
      | left + 1 =>
        if octet / 0x40 = 0b10 then (fun (t, k) => (t, k + 3)) <$> addressAt? wide left cs
        else none
  | _ + 1, _ => none
  | 0, [] => some ([], 0)
  | 0, c :: cs =>
    if c = '%' then none
    else if isAddressChar wide c then (fun (t, k) => (c :: t, k + 1)) <$> addressAt? wide 0 cs
    else some ([], 0)

/-! ## Tags -/

/-- A tag as it is written. -/
structure TagName where
  /-- what stands for the beginning of the tag, empty if nothing does -/
  handle : String
  suffix : String
  deriving DecidableEq

/-- The tag after an exclamation mark, and its number of characters. -/
def tagAt? (cs : List Char) : Option (TagName × Nat) :=
  let word := cs.takeWhile isNameChar
  match cs with
  | '<' :: cs => do
    let (address, n) ← addressAt? true 0 cs
    if address = [] ∨ (cs.drop n).head? ≠ some '>' then none
    else some (⟨"", String.ofList address⟩, n + 2)
  | cs =>
    match cs.drop word.length with
    | '!' :: ds => do
      let (suffix, n) ← addressAt? false 0 ds
      if suffix = [] then none
      else some (⟨"!" ++ String.ofList word ++ "!", String.ofList suffix⟩, word.length + 1 + n)
    | _ => do
      let (suffix, n) ← addressAt? false 0 cs
      if suffix = [] then some (⟨"", "!"⟩, 0) else some (⟨"!", String.ofList suffix⟩, n)

/-! ## Directives -/

/-- A line that says how the document below it is to be read. -/
inductive Directive where
  | version (major minor : Nat)
  | tag (handle address : String)
  deriving DecidableEq

/-- The number that at most nine digits stand for, and what follows them. -/
def shortNumber? (cs : List Char) : Option (Nat × List Char) :=
  let ds := cs.takeWhile Char.isDigit
  if ds.length ≤ 9 then (·, cs.drop ds.length) <$> Text.value? 10 ds else none

/-- The version that a line gives. -/
def versionOf? (cs : List Char) : Option Directive := do
  let (major, cs) ← shortNumber? cs
  match cs with
  | '.' :: cs =>
    let (minor, cs) ← shortNumber? cs
    if endsInComment cs then some (.version major minor) else none
  | _ => none

/-- The handle at the beginning of a line: an exclamation mark, or a word between two of
them. -/
def handleOf? : List Char → Option (List Char)
  | '!' :: cs =>
    let word := cs.takeWhile isNameChar
    match cs.drop word.length with
    | '!' :: _ => some ('!' :: word ++ ['!'])
    | _ => if word = [] then some ['!'] else none
  | _ => none

/-- What a line says a handle stands for. -/
def tagDirectiveOf? (cs : List Char) : Option Directive := do
  let handle ← handleOf? cs
  match cs.drop handle.length with
  | [] => none
  | c :: cs =>
    let cs := cs.dropWhile isBlank
    let (address, n) ← addressAt? true 0 cs
    let rest := cs.drop n
    if isBlank c ∧ address ≠ [] ∧ rest.head?.all isBlank ∧ endsInComment rest then
      some (.tag (String.ofList handle) (String.ofList address))
    else none

/-- The directive on a line after its percent sign. -/
def directiveOf? (line : List Char) : Option Directive :=
  let name := line.takeWhile isNameChar
  let rest := line.drop name.length
  if rest.head?.all isBlank then
    if name = "YAML".toList then versionOf? (rest.dropWhile isBlank)
    else if name = "TAG".toList then tagDirectiveOf? (rest.dropWhile isBlank)
    else none
  else none

end SchemaHeaders.Yaml
