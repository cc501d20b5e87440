import SchemaHeaders.Text.CodePoint

/-!
# Text in octets

`decode` reads octets as UTF-8. Where they are not well formed it gives `none` for each
longest beginning of a character that breaks off, or for a single octet that begins none;
so octets are a text (`text?`) if no `none` is among the characters, and `shown` marks each.
-/

namespace SchemaHeaders.Text

/-- A character whose first octets have been read. -/
structure OpenChar where
  /-- the number that its octets make up so far -/
  code : Nat
  /-- the number of octets to come -/
  left : Nat
  /-- the least and the greatest value of the next octet -/
  range : Nat × Nat := (0x80, 0xBF)

/-- What an octet begins: a character of its own, the first part of one, or nothing. -/
def beginChar (octet : Nat) : Option Char ⊕ OpenChar :=
  if octet < 0x80 then .inl (some (Char.ofNat octet))
  else if octet < 0xC2 then .inl none
  else if octet < 0xE0 then .inr ⟨octet - 0xC0, 1, (0x80, 0xBF)⟩
  else if octet < 0xF0 then
    .inr ⟨octet - 0xE0, 2,
      (if octet = 0xE0 then 0xA0 else 0x80, if octet = 0xED then 0x9F else 0xBF)⟩
  else if octet < 0xF5 then
    .inr ⟨octet - 0xF0, 3,
      (if octet = 0xF0 then 0x90 else 0x80, if octet = 0xF4 then 0x8F else 0xBF)⟩
  else .inl none

/-- The characters of octets after those of an open one. -/
def decodeFrom : Option OpenChar → List UInt8 → List (Option Char)
  | none, [] => []
  | some _, [] => [none]
  | none, b :: bs =>
    match beginChar b.toNat with
    | .inl c => c :: decodeFrom none bs
    | .inr o => decodeFrom (some o) bs
  | some o, b :: bs =>
    let n := b.toNat
    if o.range.1 ≤ n ∧ n ≤ o.range.2 then
      let code := o.code * 0x40 + (n - 0x80)
      if o.left = 1 then some (Char.ofNat code) :: decodeFrom none bs
      else decodeFrom (some { code, left := o.left - 1 }) bs
    else
      match beginChar n with
      | .inl c => none :: c :: decodeFrom none bs
      | .inr o => none :: decodeFrom (some o) bs

/-- The characters of octets. -/
def decode (octets : List UInt8) : List (Option Char) := decodeFrom none octets

/-- The text of octets, if they are well formed. -/
def text? (octets : List UInt8) : Option String :=
  let cs := decode octets
  if cs.all Option.isSome then some (String.ofList (cs.filterMap id)) else none

/-- The text of octets, with a mark for what is not well formed. -/
def shown (octets : List UInt8) : String :=
  String.ofList ((decode octets).map (·.getD '\ufffd'))

end SchemaHeaders.Text
