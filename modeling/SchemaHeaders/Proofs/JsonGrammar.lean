import SchemaHeaders.Json.Document
import SchemaHeaders.Proofs.Characters
import SchemaHeaders.Proofs.DecimalText

/-!
# The grammar of JSON

`Element value text` says that a text spells a JSON value, with space around it and between its
parts. The numbers and strings of a value stand for themselves as they are spelled; `Says` is what
the spelling of a string says, of which a character may have several, and a lone half of a
surrogate pair says nothing.

A text that spells a value is read as the node of that value (`ofTokens_of_element`). This is
proved for every stack of open containers that can take the value, along the grammar.
-/

namespace SchemaHeaders.Json

open Document (Node)

/-! ## Values -/

/-- A JSON value. -/
inductive Value where
  | null
  | truth (value : Bool)
  | number (spelling : List Char)
  | text (spelling : List Char)
  | array (items : List Value)
  | object (members : List (List Char × Value))

/-- Four digits that stand for a number in base sixteen. -/
def IsHex (digits : List Char) (n : Nat) : Prop :=
  digits.length = 4 ∧ Text.value? 16 digits = some n

/-- The letters after a backslash, and what they stand for. -/
def shortEscapes : List (Char × Char) :=
  [('"', '"'), ('\\', '\\'), ('/', '/'), ('\x08', 'b'), ('\x0c', 'f'), ('\n', 'n'), ('\r', 'r'),
    ('\t', 't')]

/-- A character that may stand for itself in a string. -/
def IsRaw (c : Char) : Prop := c ≠ '"' ∧ c ≠ '\\' ∧ 0x20 ≤ c.toNat

instance (c : Char) : Decidable (IsRaw c) := inferInstanceAs (Decidable (_ ∧ _))

/-- Units, and what is between the quotes of a string of them. -/
inductive Units : List TextUnit → List Char → Prop
  | nil : Units [] []
  | raw {c : Char} {units : List TextUnit} {cs : List Char} : IsRaw c → Units units cs →
      Units (.char c :: units) (c :: cs)
  | short {c e : Char} {units : List TextUnit} {cs : List Char} : (c, e) ∈ shortEscapes →
      Units units cs → Units (.char c :: units) ('\\' :: e :: cs)
  | unit {digits cs : List Char} {n : Nat} {units : List TextUnit} : IsHex digits n →
      Units units cs → Units (.escaped n :: units) ('\\' :: 'u' :: (digits ++ cs))

/-- What may be between the quotes of a string. -/
def IsText (cs : List Char) : Prop := ∃ units, Units units cs

/-- A text, and what is between the quotes of a string that says it. -/
inductive Says : List Char → List Char → Prop
  | nil : Says [] []
  | raw {c : Char} {s cs : List Char} : IsRaw c → Says s cs → Says (c :: s) (c :: cs)
  | short {c e : Char} {s cs : List Char} : (c, e) ∈ shortEscapes → Says s cs →
      Says (c :: s) ('\\' :: e :: cs)
  | unit {c : Char} {digits s cs : List Char} : IsHex digits c.toNat → Says s cs →
      Says (c :: s) ('\\' :: 'u' :: (digits ++ cs))
  | pair {c : Char} {high low s cs : List Char} : 0x10000 ≤ c.toNat →
      IsHex high (0xD800 + (c.toNat - 0x10000) / 0x400) →
      IsHex low (0xDC00 + (c.toNat - 0x10000) % 0x400) → Says s cs →
      Says (c :: s) ('\\' :: 'u' :: (high ++ '\\' :: 'u' :: (low ++ cs)))

/-- One or more decimal digits. -/
def IsDigits (cs : List Char) : Prop := cs ≠ [] ∧ ∀ c ∈ cs, c.isDigit = true

/-- The fraction of a number, if it has one. -/
def IsFraction (cs : List Char) : Prop := cs = [] ∨ ∃ digits, cs = '.' :: digits ∧ IsDigits digits

/-- The exponent of a number, if it has one. -/
def IsExponent (cs : List Char) : Prop :=
  cs = [] ∨ ∃ e sign digits, cs = e :: (sign ++ digits) ∧ (e = 'e' ∨ e = 'E') ∧
    (sign = [] ∨ sign = ['+'] ∨ sign = ['-']) ∧ IsDigits digits

/-- A number without its sign. -/
def IsUnsigned (cs : List Char) : Prop :=
  ∃ digits fraction exponent, cs = digits ++ (fraction ++ exponent) ∧ IsDigits digits ∧
    (digits.head? = some '0' → digits = ['0']) ∧ IsFraction fraction ∧ IsExponent exponent

/-- A number. -/
def IsNumber (cs : List Char) : Prop :=
  ∃ sign number, cs = sign ++ number ∧ (sign = [] ∨ sign = ['-']) ∧ IsUnsigned number

/-- Space between tokens. -/
def IsGap (cs : List Char) : Prop := ∀ c ∈ cs, c = ' ' ∨ c = '\t' ∨ c = '\n' ∨ c = '\r'

mutual

/-- A text that spells a value. -/
inductive Spells : Value → List Char → Prop
  | null : Spells .null ['n', 'u', 'l', 'l']
  | yes : Spells (.truth true) ['t', 'r', 'u', 'e']
  | no : Spells (.truth false) ['f', 'a', 'l', 's', 'e']
  | number {cs : List Char} : IsNumber cs → Spells (.number cs) cs
  | text {cs : List Char} : IsText cs → Spells (.text cs) ('"' :: (cs ++ ['"']))
  | noItems {gap : List Char} : IsGap gap → Spells (.array []) ('[' :: (gap ++ [']']))
  | items {values : List Value} {cs : List Char} : Elements values cs →
      Spells (.array values) ('[' :: (cs ++ [']']))
  | noMembers {gap : List Char} : IsGap gap → Spells (.object []) ('{' :: (gap ++ ['}']))
  | members {members : List (List Char × Value)} {cs : List Char} : Members members cs →
      Spells (.object members) ('{' :: (cs ++ ['}']))

/-- A text that spells a value between spaces. -/
inductive Element : Value → List Char → Prop
  | mk {value : Value} {before cs after : List Char} : IsGap before → Spells value cs →
      IsGap after → Element value (before ++ (cs ++ after))

/-- A text that spells values between commas. -/
inductive Elements : List Value → List Char → Prop
  | one {value : Value} {cs : List Char} : Element value cs → Elements [value] cs
  | more {value : Value} {values : List Value} {cs rest : List Char} : Element value cs →
      Elements values rest → Elements (value :: values) (cs ++ ',' :: rest)

/-- A text that spells a member of an object. -/
inductive Member : List Char × Value → List Char → Prop
  | mk {key before after : List Char} {value : Value} {cs : List Char} : IsGap before →
      IsText key → IsGap after → Element value cs →
      Member (key, value) (before ++ '"' :: (key ++ '"' :: (after ++ ':' :: cs)))

/-- A text that spells members between commas. -/
inductive Members : List (List Char × Value) → List Char → Prop
  | one {member : List Char × Value} {cs : List Char} : Member member cs → Members [member] cs
  | more {member : List Char × Value} {members : List (List Char × Value)} {cs rest : List Char} :
      Member member cs → Members members rest → Members (member :: members) (cs ++ ',' :: rest)

end

theorem isGap_nil : IsGap [] := fun _ hc => by cases hc

theorem isGap_space : IsGap [' '] := by
  intro c hc
  exact Or.inl (List.mem_singleton.mp hc)

/-- What spells a value is an element without space. -/
theorem Spells.element {value : Value} {cs : List Char} (h : Spells value cs) :
    Element value cs := by
  have helement := Element.mk isGap_nil h isGap_nil
  rwa [List.append_nil] at helement

/-- What spells a value is an element after a space. -/
theorem Spells.element_space {value : Value} {cs : List Char} (h : Spells value cs) :
    Element value (' ' :: cs) := by
  have helement := Element.mk isGap_space h isGap_nil
  rwa [List.append_nil] at helement

/-- A member whose key has no space around it. -/
theorem Element.member {key cs : List Char} {value : Value} (hkey : IsText key)
    (h : Element value cs) : Member (key, value) ('"' :: (key ++ '"' :: ':' :: cs)) :=
  Member.mk isGap_nil hkey isGap_nil h

/-! ## Strings -/

section Units

variable {cs s : List Char} {units : List TextUnit} {n : Nat}

theorem unitsAt?_raw {c : Char} (hc : IsRaw c) (h : unitsAt? cs = some (units, n)) :
    unitsAt? (c :: cs) = some (.char c :: units, n + 1) := by
  obtain ⟨hquote, hslash, hcontrol⟩ := hc
  rw [unitsAt?]
  · rw [if_neg (by simp [hslash]; omega), h]
  · exact hquote
  all_goals simp [hslash]

theorem unitsAt?_short {c e : Char} (he : (c, e) ∈ shortEscapes)
    (h : unitsAt? cs = some (units, n)) :
    unitsAt? ('\\' :: e :: cs) = some (.char c :: units, n + 2) := by
  have hescape : ∀ pair ∈ shortEscapes, shortEscape? pair.2 = some pair.1 ∧ pair.2 ≠ 'u' := by
    decide
  obtain ⟨hescape, hu⟩ := hescape _ he
  rw [unitsAt?]
  · rw [hescape, h]
  · exact fun _ _ _ _ _ hunit => absurd hunit hu

theorem unitsAt?_unit {digits : List Char} {u : Nat} (hdigits : IsHex digits u)
    (h : unitsAt? cs = some (units, n)) :
    unitsAt? ('\\' :: 'u' :: (digits ++ cs)) = some (.escaped u :: units, n + 6) := by
  obtain ⟨hlength, hvalue⟩ := hdigits
  match digits, hlength with
  | [a, b, c, d], _ =>
    simp only [List.cons_append, List.nil_append, unitsAt?, hvalue, h]

/-- The units of a string are read up to its closing quote. -/
theorem unitsAt?_of_units (h : Units units cs) (rest : List Char) :
    unitsAt? (cs ++ '"' :: rest) = some (units, cs.length + 1) := by
  induction h with
  | nil => rfl
  | raw hc _ ih => exact unitsAt?_raw hc ih
  | short he _ ih => exact unitsAt?_short he ih
  | unit hdigits _ ih =>
    simp only [List.cons_append, List.append_assoc, List.length_cons, List.length_append, hdigits.1]
    rw [unitsAt?_unit hdigits ih]
    congr 2
    omega

theorem toNat_of_valid (c : Char) : c.toNat < 0xD800 ∨ 0xDFFF < c.toNat ∧ c.toNat < 0x110000 :=
  c.valid

/-- An escaped character that is no half of a pair is put together by itself. -/
theorem assemble_escaped (c : Char) (units : List TextUnit) :
    assemble (.escaped c.toNat :: units) = (c :: ·) <$> assemble units := by
  have hvalid := toNat_of_valid c
  rw [assemble.eq_def]
  simp only
  rw [if_neg (by omega), if_neg (by omega), Char.ofNat_toNat]

/-- An escaped pair is put together to a character. -/
theorem assemble_pair (c : Char) (hc : 0x10000 ≤ c.toNat) (units : List TextUnit) :
    assemble (.escaped (0xD800 + (c.toNat - 0x10000) / 0x400) ::
      .escaped (0xDC00 + (c.toNat - 0x10000) % 0x400) :: units) = (c :: ·) <$> assemble units := by
  have hvalid := toNat_of_valid c
  have hsum : 0x10000 + (0xD800 + (c.toNat - 0x10000) / 0x400 - 0xD800) * 0x400 +
      (0xDC00 + (c.toNat - 0x10000) % 0x400 - 0xDC00) = c.toNat := by
    omega
  rw [assemble, if_neg (by omega), if_pos (by omega), if_pos (by omega), hsum, Char.ofNat_toNat]

/-- What says a text is units that are put together to it. -/
theorem Says.exists_units (h : Says s cs) :
    ∃ units, Units units cs ∧ assemble units = some s := by
  induction h with
  | nil => exact ⟨[], .nil, rfl⟩
  | raw hc _ ih =>
    obtain ⟨units, hunits, hassemble⟩ := ih
    exact ⟨_, .raw hc hunits, by rw [assemble, hassemble]; rfl⟩
  | short he _ ih =>
    obtain ⟨units, hunits, hassemble⟩ := ih
    exact ⟨_, .short he hunits, by rw [assemble, hassemble]; rfl⟩
  | unit hdigits _ ih =>
    obtain ⟨units, hunits, hassemble⟩ := ih
    refine ⟨_, .unit hdigits hunits, ?_⟩
    rw [assemble_escaped, hassemble]
    rfl
  | pair hwide hhigh hlow _ ih =>
    obtain ⟨units, hunits, hassemble⟩ := ih
    refine ⟨_, .unit hhigh (.unit hlow hunits), ?_⟩
    rw [assemble_pair _ hwide, hassemble]
    rfl

theorem Says.isText (h : Says s cs) : IsText cs :=
  let ⟨units, hunits, _⟩ := h.exists_units
  ⟨units, hunits⟩

/-- What is between the quotes of a string stands for. -/
def contentOf (spelling : List Char) : Option String :=
  (unitsAt? (spelling ++ ['"'])).bind fun read => (assemble read.1).map String.ofList

theorem contentOf_of_units (h : Units units cs) :
    contentOf cs = (assemble units).map String.ofList := by
  rw [contentOf, unitsAt?_of_units h]
  rfl

theorem contentOf_of_spelling (h : Says s cs) : contentOf cs = some (String.ofList s) := by
  obtain ⟨units, hunits, hassemble⟩ := h.exists_units
  rw [contentOf_of_units hunits, hassemble]
  rfl

end Units

/-! ## Numbers -/

/-- What does not go on with a number that it follows. -/
def Stops (rest : List Char) : Prop :=
  ∀ c, rest.head? = some c → c.isDigit = false ∧ c ≠ '.' ∧ c ≠ 'e' ∧ c ≠ 'E'

theorem takeWhile_digits {digits rest : List Char} (hdigits : ∀ c ∈ digits, c.isDigit = true)
    (hrest : ∀ c, rest.head? = some c → c.isDigit = false) :
    (digits ++ rest).takeWhile Char.isDigit = digits := by
  rw [List.takeWhile_append_of_pos hdigits]
  cases rest with
  | nil => simp
  | cons c rest => simp [hrest c rfl]

section Numbers

variable {digits fraction exponent rest : List Char} {negative : Bool}

theorem fractionLength?_eq (h : IsFraction fraction)
    (hrest : ∀ c, rest.head? = some c → c.isDigit = false ∧ c ≠ '.') :
    fractionLength? (fraction ++ rest) = some fraction.length := by
  rcases h with rfl | ⟨digits, rfl, hne, hdigits⟩
  · cases rest with
    | nil => rfl
    | cons c rest =>
      rw [List.nil_append, fractionLength?]
      · rfl
      · simp [(hrest c rfl).2]
  · rw [List.cons_append, fractionLength?, takeWhile_digits hdigits fun c hc => (hrest c hc).1]
    rw [if_neg (by simpa using hne)]
    rfl

theorem exponentLength?_eq (h : IsExponent exponent) (hrest : Stops rest) :
    exponentLength? (exponent ++ rest) = some exponent.length := by
  rcases h with rfl | ⟨e, sign, digits, rfl, he, hsign, hne, hdigits⟩
  · cases rest with
    | nil => rfl
    | cons c rest =>
      obtain ⟨-, -, he, he'⟩ := hrest c rfl
      simp only [List.nil_append, exponentLength?, he, he', or_self, if_false, List.length_nil]
  · obtain ⟨d, digits, rfl⟩ := List.exists_cons_of_ne_nil hne
    have htake := takeWhile_digits hdigits fun c hc => (hrest c hc).1
    have hd : d.isDigit = true := hdigits d (List.mem_cons_self ..)
    simp only [exponentLength?, List.cons_append, List.append_assoc, if_pos he]
    rcases hsign with rfl | rfl | rfl
    · rw [List.nil_append]
      split
      case h_1 h => simp [(List.cons.inj h).1] at hd
      case h_2 h => simp [(List.cons.inj h).1] at hd
      case h_3 =>
        simp only [List.drop_zero]
        rw [List.cons_append] at htake
        simp [htake]
    · rw [List.cons_append] at htake
      simp [htake]
    · rw [List.cons_append] at htake
      simp [htake]

/-- A number is digits only if it has neither a fraction nor an exponent. -/
theorem all_isDigit_iff (hdigits : IsDigits digits) (hfraction : IsFraction fraction)
    (hexponent : IsExponent exponent) :
    (digits ++ (fraction ++ exponent)).all Char.isDigit = true ↔ fraction = [] ∧ exponent = [] := by
  have hfraction' : fraction.all Char.isDigit = true ↔ fraction = [] := by
    rcases hfraction with rfl | ⟨ds, rfl, -⟩
    · simp
    · simp [show Char.isDigit '.' = false from rfl]
  have hexponent' : exponent.all Char.isDigit = true ↔ exponent = [] := by
    rcases hexponent with rfl | ⟨e, sign, ds, rfl, rfl | rfl, -⟩
    · simp
    all_goals simp [show Char.isDigit 'e' = false from rfl, show Char.isDigit 'E' = false from rfl]
  rw [List.all_append, List.all_append, Bool.and_eq_true, Bool.and_eq_true, hfraction', hexponent']
  exact and_iff_right (List.all_eq_true.mpr hdigits.2)

/-- The integer that a number stands for, if it is written as one. -/
def unsignedOf (negative : Bool) (cs : List Char) : Option Int :=
  if cs.all Char.isDigit then integer? negative cs else none

/-- A number is read up to what does not go on with it. -/
theorem numberAt?_of_unsigned {cs : List Char} (h : IsUnsigned cs) (hrest : Stops rest) :
    numberAt? negative (cs ++ rest) = some (.number (unsignedOf negative cs), cs.length) := by
  obtain ⟨digits, fraction, exponent, rfl, hdigits, hzero, hfraction, hexponent⟩ := h
  have hexponent' : ∀ c, (exponent ++ rest).head? = some c → c.isDigit = false ∧ c ≠ '.' := by
    rcases hexponent with rfl | ⟨e, sign, ds, rfl, rfl | rfl, -⟩
    · exact fun c hc => ⟨(hrest c hc).1, (hrest c hc).2.1⟩
    all_goals
      rintro c ⟨⟩
      decide
  have hfraction' : ∀ c, (fraction ++ (exponent ++ rest)).head? = some c → c.isDigit = false := by
    rcases hfraction with rfl | ⟨ds, rfl, -⟩
    · exact fun c hc => (hexponent' c hc).1
    · rintro c ⟨⟩
      rfl
  have hne : ¬ (digits = [] ∨ digits.head? = some '0' ∧ digits ≠ ['0']) := by
    rintro (h | ⟨h, h'⟩)
    · exact hdigits.1 h
    · exact h' (hzero h)
  have hdrop : (digits ++ (fraction ++ (exponent ++ rest))).drop (digits.length + fraction.length) =
      exponent ++ rest := by
    rw [← List.append_assoc, ← List.length_append, List.drop_left]
  rw [List.append_assoc, List.append_assoc, List.length_append, List.length_append, ← Nat.add_assoc]
  simp only [numberAt?, takeWhile_digits hdigits.2 hfraction', if_neg hne, List.drop_left,
    fractionLength?_eq hfraction hexponent', hdrop, exponentLength?_eq hexponent hrest,
    List.length_eq_zero_iff, unsignedOf, all_isDigit_iff hdigits hfraction hexponent]
  congr 3
  split
  case isTrue h => rw [h.1, h.2, List.append_nil, List.append_nil]
  case isFalse => rfl

/-- A number without its sign begins with a digit. -/
theorem IsUnsigned.exists_digit {cs : List Char} (h : IsUnsigned cs) :
    ∃ d tail, cs = d :: tail ∧ d.isDigit = true := by
  obtain ⟨digits, fraction, exponent, rfl, ⟨hne, hdigits⟩, -⟩ := h
  obtain ⟨d, digits, rfl⟩ := List.exists_cons_of_ne_nil hne
  exact ⟨d, _, rfl, hdigits d (List.mem_cons_self ..)⟩

end Numbers

/-- The integer that a number stands for, if it is written as one. -/
def integerOf : List Char → Option Int
  | '-' :: cs => unsignedOf true cs
  | cs => unsignedOf false cs

theorem isUnsigned_digits (n : Nat) : IsUnsigned (Text.digits n) :=
  ⟨Text.digits n, [], [], by rw [List.append_nil, List.append_nil],
    ⟨Text.digits_ne_nil n, Text.isDigit_of_mem_digits n⟩, Text.digits_of_head?, Or.inl rfl, Or.inl rfl⟩

/-- The decimal text of an integer is a number. -/
theorem isNumber_signed (z : Int) : IsNumber (Text.signed z) := by
  rcases Text.signed_cases z with ⟨-, h⟩ | ⟨-, h⟩ <;> rw [h]
  · exact ⟨[], _, rfl, Or.inl rfl, isUnsigned_digits _⟩
  · exact ⟨['-'], _, rfl, Or.inr rfl, isUnsigned_digits _⟩

theorem unsignedOf_digits (negative : Bool) (n : Nat) : unsignedOf negative (Text.digits n) =
    if negative then if n = 0 then none else some (-(n : Int)) else some (n : Int) := by
  rw [unsignedOf, if_pos (Text.all_isDigit_digits n), integer?, Text.value?_digits]

/-- The decimal text of an integer stands for it. -/
theorem integerOf_signed (z : Int) : integerOf (Text.signed z) = some z := by
  rcases Text.signed_cases z with ⟨hz, h⟩ | ⟨hz, h⟩ <;> rw [h]
  · rw [integerOf, unsignedOf_digits]
    · simp
      omega
    · intro cs hcs
      have hminus := Text.isDigit_of_mem_digits z.natAbs '-' (hcs ▸ List.mem_cons_self ..)
      exact absurd hminus (by decide)
  · rw [integerOf, unsignedOf_digits, if_pos rfl, if_neg (by omega)]
    congr 1
    omega

/-! ## Tokens -/

/-- A token, and its characters, where others follow. -/
def IsToken (t : Token) (cs rest : List Char) : Prop :=
  ∃ c tail, cs = c :: tail ∧ isSpace c = false ∧ tokenAt? c (tail ++ rest) = some (t, tail.length)

theorem scanFrom_drop (n : Nat) (cs : List Char) :
    Token.scanFrom n cs = Token.scanFrom 0 (cs.drop n) := by
  induction n generalizing cs with
  | zero => rfl
  | succ n ih =>
    cases cs with
    | nil => rfl
    | cons c cs => exact ih cs

theorem scanFrom_token {t : Token} {cs rest : List Char} (h : IsToken t cs rest) :
    Token.scanFrom 0 (cs ++ rest) = (t :: (Token.scanFrom 0 rest).1, (Token.scanFrom 0 rest).2) := by
  obtain ⟨c, tail, rfl, hspace, htoken⟩ := h
  rw [List.cons_append, Token.scanFrom, if_neg (by simp [hspace]), htoken]
  simp only [scanFrom_drop tail.length, List.drop_left]

theorem scanFrom_gap {gap : List Char} (h : IsGap gap) (rest : List Char) :
    Token.scanFrom 0 (gap ++ rest) = Token.scanFrom 0 rest := by
  induction gap with
  | nil => rfl
  | cons c gap ih =>
    have hc : isSpace c = true := by
      rcases h c (List.mem_cons_self ..) with rfl | rfl | rfl | rfl <;> rfl
    rw [List.cons_append, Token.scanFrom, if_pos hc]
    exact ih fun c hc => h c (List.mem_cons_of_mem _ hc)

section Tokens

variable {cs rest : List Char}

theorem isToken_text (h : IsText cs) : IsToken (.text (contentOf cs)) ('"' :: (cs ++ ['"'])) rest := by
  obtain ⟨units, hunits⟩ := h
  refine ⟨_, _, rfl, rfl, ?_⟩
  rw [List.append_assoc, List.singleton_append, tokenAt?, unitsAt?_of_units hunits,
    contentOf_of_units hunits, List.length_append]
  rfl

theorem tokenAt?_digit {c : Char} {cs : List Char} (hc : c.isDigit = true) :
    tokenAt? c cs = (numberAt? false (c :: cs)).map fun read => (read.1, read.2 - 1) := by
  unfold tokenAt?
  split
  case h_12 =>
    rw [if_pos hc]
    cases numberAt? false (c :: cs) <;> rfl
  all_goals exact absurd hc (by decide)

theorem isToken_number (h : IsNumber cs) (hrest : Stops rest) :
    IsToken (.number (integerOf cs)) cs rest := by
  obtain ⟨sign, number, rfl, rfl | rfl, hnumber⟩ := h
  · have hread := @numberAt?_of_unsigned _ false _ hnumber hrest
    obtain ⟨d, tail, rfl, hd⟩ := hnumber.exists_digit
    have hminus : d ≠ '-' := by
      rintro rfl
      exact absurd hd (by decide)
    refine ⟨d, tail, rfl, ?_, ?_⟩
    · simp only [isSpace, Bool.or_eq_false_iff, beq_eq_false_iff_ne]
      refine ⟨⟨⟨?_, ?_⟩, ?_⟩, ?_⟩ <;> rintro rfl <;> exact absurd hd (by decide)
    · rw [tokenAt?_digit hd, ← List.cons_append, hread, List.nil_append, integerOf]
      · rfl
      · exact fun _ h => hminus (List.cons.inj h).1
  · exact ⟨'-', number, rfl, rfl, by rw [tokenAt?, numberAt?_of_unsigned hnumber hrest]; rfl⟩

end Tokens

/-! ## Trees -/

mutual

/-- The node of a value. -/
def nodeOf : Value → Node
  | .null => .scalar { absent := true }
  | .truth _ => .scalar {}
  | .number spelling => ((integerOf spelling).map .ofInt).getD (.scalar {})
  | .text spelling => .scalar { text := contentOf spelling }
  | .array items => .list (nodesOf items) true
  | .object members => .table (entriesOf members) true

/-- The nodes of values. -/
def nodesOf : List Value → List Node
  | [] => []
  | value :: values => nodeOf value :: nodesOf values

/-- The entries of members. -/
def entriesOf : List (List Char × Value) → List (Node × Node)
  | [] => []
  | (key, value) :: members =>
    (.scalar { text := contentOf key }, nodeOf value) :: entriesOf members

end

/-- Every value makes sense. -/
theorem whole_nodeOf (value : Value) : (nodeOf value).whole = true := by
  cases value with
  | number spelling => cases h : integerOf spelling <;> simp [nodeOf, h, Node.whole, Node.ofInt]
  | _ => simp [nodeOf, Node.whole]

theorem nodesOf_eq_map (values : List Value) : nodesOf values = values.map nodeOf := by
  induction values with
  | nil => rfl
  | cons value values ih => rw [nodesOf, ih]; rfl

theorem entriesOf_eq_map (members : List (List Char × Value)) : entriesOf members =
    members.map fun member => (.scalar { text := contentOf member.1 }, nodeOf member.2) := by
  induction members with
  | nil => rfl
  | cons member members ih => rw [entriesOf, ih]; rfl

theorem ofList_nodesOf (values : List Value) :
    Node.ofList (nodesOf values) = nodeOf (.array values) := by
  simp [Node.ofList, nodeOf, nodesOf_eq_map, whole_nodeOf]

theorem ofEntries_entriesOf (members : List (List Char × Value)) :
    Node.ofEntries (entriesOf members) = nodeOf (.object members) := by
  have hkey : ∀ s, (Node.scalar s).whole = true := fun _ => rfl
  simp [Node.ofEntries, nodeOf, entriesOf_eq_map, whole_nodeOf, hkey]

/-! ## Reading -/

/-- The document of a text that follows what has been read. -/
def readFrom (stack : List Frame) (expect : Expect) (text : List Char) : Document :=
  ofTokensFrom (Token.scanFrom 0 text).2 stack expect (Token.scanFrom 0 text).1

/-- The document of a text that follows a token, by what that leads to. -/
def resume (move : Move) (text : List Char) : Document :=
  match move with
  | .on stack expect => readFrom stack expect text
  | .root node =>
    { root := node, ended := (Token.scanFrom 0 text).1.isEmpty && (Token.scanFrom 0 text).2 }
  | .stuck => Document.unreadable

theorem resume_gap {gap : List Char} (h : IsGap gap) (move : Move) (rest : List Char) :
    resume move (gap ++ rest) = resume move rest := by
  cases move <;> simp only [resume, readFrom, scanFrom_gap h]

theorem readFrom_gap {gap : List Char} (h : IsGap gap) (stack : List Frame) (expect : Expect)
    (rest : List Char) : readFrom stack expect (gap ++ rest) = readFrom stack expect rest :=
  resume_gap h (.on stack expect) rest

/-- A token is read where it may stand. -/
theorem readFrom_token {t : Token} {cs rest : List Char} (h : IsToken t cs rest)
    {stack : List Frame} {expect : Expect} {move : Move} (hmove : advance stack expect t = move)
    (hne : move ≠ .stuck) : readFrom stack expect (cs ++ rest) = resume move rest := by
  rw [readFrom, scanFrom_token h, ofTokensFrom, hmove]
  cases move with
  | stuck => exact absurd rfl hne
  | on stack expect => rfl
  | root node => rfl

/-- Whether a value may come next. -/
def ValueNext (expect : Expect) : Prop := expect = .value ∨ expect = .valueOrClose

/-- Whether a key may come next. -/
def KeyNext (expect : Expect) : Prop := expect = .key ∨ expect = .keyOrClose

/-- Whether a value may be put into what is open. -/
def Takes (stack : List Frame) : Prop :=
  ∀ entries outer, stack ≠ .table entries none :: outer

theorem takes_nil : Takes [] := fun _ _ h => by cases h

theorem takes_list (items : List Node) (stack : List Frame) : Takes (.list items :: stack) :=
  fun _ _ h => by cases h

theorem takes_key (entries : List (Node × Node)) (key : Node) (stack : List Frame) :
    Takes (.table entries (some key) :: stack) :=
  fun _ _ h => by cases h

theorem Takes.supply_ne {stack : List Frame} (h : Takes stack) (node : Node) :
    supply stack node ≠ .stuck := by
  match stack with
  | [] => exact nofun
  | .list _ :: _ => exact nofun
  | .table _ (some _) :: _ => exact nofun
  | .table _ none :: _ => exact absurd rfl (h _ _)

/-- What may follow a value in an open container does not go on with a number. -/
theorem stops_of_mark {c : Char} (hc : c ∈ [',', ']', '}']) (rest : List Char) :
    Stops (c :: rest) := by
  rintro _ ⟨⟩
  revert c
  decide

theorem stops_gap {gap rest : List Char} (hgap : IsGap gap) (hrest : Stops rest) :
    Stops (gap ++ rest) := by
  cases gap with
  | nil => exact hrest
  | cons c gap =>
    rintro _ ⟨⟩
    rcases hgap c (List.mem_cons_self ..) with rfl | rfl | rfl | rfl <;> decide

/-- A token that is a value of its own is read as the node of that value. -/
theorem readFrom_scalar {t : Token} {node : Node} {cs rest : List Char} (h : IsToken t cs rest)
    (hscalar : scalar? t = some node) {stack : List Frame} {expect : Expect} (hstack : Takes stack)
    (hexpect : ValueNext expect) :
    readFrom stack expect (cs ++ rest) = resume (supply stack node) rest := by
  have hmove : advance stack expect t = supply stack node := by
    rcases hexpect with rfl | rfl <;> cases t <;>
      simp_all [advance, beginValue, scalar?]
  exact readFrom_token h hmove (hstack.supply_ne node)

section Containers

variable {stack : List Frame} {expect : Expect} {rest : List Char}

/-- The signs that open a container, the container, and what is expected in it. -/
inductive Opens : Char → Token → Frame → Expect → Prop
  | list : Opens '[' .openBracket (.list []) .valueOrClose
  | table : Opens '{' .openBrace (.table [] none) .keyOrClose

theorem readFrom_open {c : Char} {t : Token} {frame : Frame} {inside : Expect}
    (h : Opens c t frame inside) (hexpect : ValueNext expect) :
    readFrom stack expect (c :: rest) = readFrom (frame :: stack) inside rest := by
  have htoken : IsToken t [c] rest := by cases h <;> exact ⟨_, [], rfl, rfl, rfl⟩
  have hmove : advance stack expect t = .on (frame :: stack) inside := by
    cases h <;> rcases hexpect with rfl | rfl <;> rfl
  exact readFrom_token htoken hmove nofun

/-- The signs that close a container where one of them is expected, and its node. -/
inductive Closes : Char → Token → Frame → Expect → Node → Prop
  | list {inside : Expect} (items : List Node) : inside = .valueOrClose ∨ inside = .commaOrClose →
      Closes ']' .closeBracket (.list items) inside (.ofList items.reverse)
  | table {inside : Expect} (entries : List (Node × Node)) :
      inside = .keyOrClose ∨ inside = .commaOrClose →
      Closes '}' .closeBrace (.table entries none) inside (.ofEntries entries.reverse)

/-- A container ends at its sign, and its node goes into whatever takes it. -/
theorem readFrom_close {c : Char} {t : Token} {frame : Frame} {node : Node}
    (h : Closes c t frame expect node) (hstack : Takes stack) :
    readFrom (frame :: stack) expect (c :: rest) = resume (supply stack node) rest := by
  have htoken : IsToken t [c] rest := by cases h <;> exact ⟨_, [], rfl, rfl, rfl⟩
  have hmove : advance (frame :: stack) expect t = supply stack node := by
    cases h <;> rename_i hexpect <;> rcases hexpect with rfl | rfl <;> rfl
  exact readFrom_token htoken hmove (hstack.supply_ne node)

/-- A comma leads to the next part of what is open. -/
theorem readFrom_comma {frame : Frame} {next : Expect}
    (h : advance (frame :: stack) .commaOrClose .comma = .on (frame :: stack) next) :
    readFrom (frame :: stack) .commaOrClose (',' :: rest) = readFrom (frame :: stack) next rest :=
  readFrom_token (t := .comma) ⟨',', [], rfl, rfl, rfl⟩ h nofun

/-- A key is read up to its colon. -/
theorem readFrom_key {key gap : List Char} (hkey : IsText key) (hgap : IsGap gap)
    (entries : List (Node × Node)) (hexpect : KeyNext expect) :
    readFrom (.table entries none :: stack) expect ('"' :: (key ++ '"' :: (gap ++ ':' :: rest))) =
      readFrom (.table entries (some (.scalar { text := contentOf key })) :: stack) .value rest := by
  have hmove : advance (.table entries none :: stack) expect (.text (contentOf key)) =
      .on (.table entries (some (.scalar { text := contentOf key })) :: stack) .colon := by
    rcases hexpect with rfl | rfl <;> rfl
  have h := @readFrom_token _ _ (gap ++ ':' :: rest) (isToken_text hkey) _ _ _ hmove nofun
  simp only [List.cons_append, List.append_assoc, List.nil_append] at h
  rw [h, resume, readFrom_gap hgap]
  exact readFrom_token (t := .colon) ⟨':', [], rfl, rfl, rfl⟩ rfl nofun

end Containers

mutual

/-- A text that spells a value is read as its node, into whatever takes it. -/
theorem readFrom_of_spells {value : Value} {cs : List Char} (h : Spells value cs)
    (stack : List Frame) (expect : Expect) (rest : List Char) (hstack : Takes stack)
    (hexpect : ValueNext expect) (hrest : Stops rest) :
    readFrom stack expect (cs ++ rest) = resume (supply stack (nodeOf value)) rest :=
  match h with
  | .null => readFrom_scalar ⟨'n', _, rfl, rfl, rfl⟩ rfl hstack hexpect
  | .yes => readFrom_scalar ⟨'t', _, rfl, rfl, rfl⟩ rfl hstack hexpect
  | .no => readFrom_scalar ⟨'f', _, rfl, rfl, rfl⟩ rfl hstack hexpect
  | .number hnumber => by
    refine readFrom_scalar (isToken_number hnumber hrest) ?_ hstack hexpect
    rw [nodeOf]
    cases integerOf cs <;> rfl
  | .text htext => readFrom_scalar (isToken_text htext) rfl hstack hexpect
  | .noItems hgap => by
    rw [List.cons_append, List.append_assoc, readFrom_open .list hexpect, readFrom_gap hgap]
    exact readFrom_close (.list [] (Or.inl rfl)) hstack
  | .items hitems => by
    rw [List.cons_append, List.append_assoc, readFrom_open .list hexpect, List.singleton_append,
      readFrom_of_elements hitems [] stack _ rest hstack (Or.inr rfl), List.reverse_nil,
      List.nil_append, ofList_nodesOf]
  | .noMembers hgap => by
    rw [List.cons_append, List.append_assoc, readFrom_open .table hexpect, readFrom_gap hgap]
    exact readFrom_close (.table [] (Or.inl rfl)) hstack
  | .members hmembers => by
    rw [List.cons_append, List.append_assoc, readFrom_open .table hexpect, List.singleton_append,
      readFrom_of_members hmembers [] stack _ rest hstack (Or.inr rfl), List.reverse_nil,
      List.nil_append, ofEntries_entriesOf]

theorem readFrom_of_element {value : Value} {cs : List Char} (h : Element value cs)
    (stack : List Frame) (expect : Expect) (rest : List Char) (hstack : Takes stack)
    (hexpect : ValueNext expect) (hrest : Stops rest) :
    readFrom stack expect (cs ++ rest) = resume (supply stack (nodeOf value)) rest :=
  match h with
  | .mk hbefore hvalue hafter => by
    rw [List.append_assoc, List.append_assoc, readFrom_gap hbefore,
      readFrom_of_spells hvalue stack expect _ hstack hexpect (stops_gap hafter hrest),
      resume_gap hafter]

theorem readFrom_of_elements {values : List Value} {cs : List Char} (h : Elements values cs)
    (items : List Node) (stack : List Frame) (expect : Expect) (rest : List Char)
    (hstack : Takes stack) (hexpect : ValueNext expect) :
    readFrom (.list items :: stack) expect (cs ++ ']' :: rest) =
      resume (supply stack (.ofList (items.reverse ++ nodesOf values))) rest :=
  match h with
  | @Elements.one value _ hvalue => by
    rw [readFrom_of_element hvalue _ expect _ (takes_list items stack) hexpect
      (stops_of_mark (by decide) rest)]
    have hclose := @readFrom_close _ _ rest _ _ _ _ (.list (nodeOf value :: items) (Or.inr rfl)) hstack
    rwa [List.reverse_cons] at hclose
  | @Elements.more value values _ _ hvalue hvalues => by
    rw [List.append_assoc, List.cons_append, readFrom_of_element hvalue _ expect _
      (takes_list items stack) hexpect (stops_of_mark (by decide) _)]
    have hrest := readFrom_of_elements hvalues (nodeOf value :: items) stack .value rest hstack
      (Or.inl rfl)
    rw [List.reverse_cons, List.append_assoc] at hrest
    exact Eq.trans (readFrom_comma rfl) hrest

theorem readFrom_of_member {member : List Char × Value} {cs : List Char} (h : Member member cs)
    (entries : List (Node × Node)) (stack : List Frame) (expect : Expect) (rest : List Char)
    (hexpect : KeyNext expect) (hrest : Stops rest) :
    readFrom (.table entries none :: stack) expect (cs ++ rest) =
      readFrom (.table ((.scalar { text := contentOf member.1 }, nodeOf member.2) :: entries) none ::
        stack) .commaOrClose rest :=
  match h with
  | .mk hbefore hkey hafter hvalue => by
    simp only [List.append_assoc, List.cons_append]
    rw [readFrom_gap hbefore, readFrom_key hkey hafter entries hexpect,
      readFrom_of_element hvalue _ .value rest (takes_key _ _ _) (Or.inl rfl) hrest]
    rfl

theorem readFrom_of_members {members : List (List Char × Value)} {cs : List Char}
    (h : Members members cs) (entries : List (Node × Node)) (stack : List Frame) (expect : Expect)
    (rest : List Char) (hstack : Takes stack) (hexpect : KeyNext expect) :
    readFrom (.table entries none :: stack) expect (cs ++ '}' :: rest) =
      resume (supply stack (.ofEntries (entries.reverse ++ entriesOf members))) rest :=
  match h with
  | @Members.one member _ hmember => by
    rw [readFrom_of_member hmember entries stack expect _ hexpect (stops_of_mark (by decide) rest)]
    have hclose := @readFrom_close _ _ rest _ _ _ _ (.table
      ((.scalar { text := contentOf member.1 }, nodeOf member.2) :: entries) (Or.inr rfl)) hstack
    rwa [List.reverse_cons] at hclose
  | @Members.more member members _ _ hmember hmembers => by
    rw [List.append_assoc, List.cons_append,
      readFrom_of_member hmember entries stack expect _ hexpect (stops_of_mark (by decide) _)]
    have hrest := readFrom_of_members hmembers
      ((.scalar { text := contentOf member.1 }, nodeOf member.2) :: entries) stack .key rest hstack
      (Or.inl rfl)
    rw [List.reverse_cons, List.append_assoc] at hrest
    exact Eq.trans (readFrom_comma rfl) hrest

end

/-- A text that spells a value is read as the node of that value, to its end. -/
theorem ofTokens_of_element {value : Value} {cs : List Char} (h : Element value cs) :
    ofTokens (Token.scan cs) = { root := nodeOf value } := by
  have hread := readFrom_of_element h [] .value [] takes_nil (Or.inl rfl) nofun
  rw [List.append_nil] at hread
  exact hread

end SchemaHeaders.Json
