import SchemaHeaders.Proofs.Characters
import SchemaHeaders.Proofs.Marks

/-!
# Identifiers

An identifier begins with an ASCII letter and goes on with ASCII letters, digits and underscores
(`IsIdentifier`). Its case is changed one character at a time (`titleChars_ascii`,
`lowerChars_ascii`), so that no characters come up but those of a kind that is closed under this
(`CaseClosed`). What headers are made of has letters and digits only: `isTypeName_pascalCase` says
this of names in Pascal case, which moreover begin with a capital, and `isAlphanum_camelCase` of
names in camel case.
-/

namespace SchemaHeaders

/-! ## ASCII texts -/

namespace Text

theorem map_toLower_of_isSmall {cs : List Char} (h : ∀ c ∈ cs, IsSmall c) :
    cs.map Char.toLower = cs :=
  (List.map_congr_left fun c hc => (h c hc).toLower_eq).trans (List.map_id' cs)

/-- ASCII in upper case, one character for each. -/
theorem flatMap_upper_of_ascii {cs : List Char} (h : ∀ c ∈ cs, c.toNat < 0x80) :
    cs.flatMap upper = cs.map Char.toUpper := by
  rw [List.map_eq_flatMap]
  exact List.flatMap_congr fun c hc => upper_of_ascii (h c hc)

/-- ASCII in lower case, one character for each. -/
theorem flatMap_lower_of_ascii {cs : List Char} (h : ∀ c ∈ cs, c.toNat < 0x80) :
    cs.flatMap lower = cs.map Char.toLower := by
  rw [List.map_eq_flatMap]
  exact List.flatMap_congr fun c hc => lower_of_ascii (h c hc)

end Text

namespace Naming

open Text

/-! ## Words of ASCII characters -/

/-- The title case of an ASCII character depends on whether a letter stands before it. -/
theorem titleChars_ascii {c : Char} (hc : c.toNat < 0x80) (afterLetter : Bool) (cs : List Char) :
    titleChars afterLetter (c :: cs) =
      (if afterLetter then c.toLower else c.toUpper) :: titleChars c.isAlpha cs := by
  rw [titleChars, isAlphabetic_of_ascii hc, lower_of_ascii hc, upper_of_ascii hc]
  cases afterLetter <;> rfl

/-- There is no sigma in ASCII, so that lower case is that of each character. -/
theorem lowerChars_ascii : ∀ (before : List Char) {word : List Char},
    (∀ c ∈ word, c.toNat < 0x80) → lowerChars before word = word.map Char.toLower
  | _, [], _ => rfl
  | before, c :: cs, h => by
    have hc := h c (List.mem_cons_self ..)
    have hsigma : c ≠ 'Σ' := by
      rintro rfl
      exact absurd hc (by decide)
    rw [lowerChars, if_neg hsigma, lower_of_ascii hc,
      lowerChars_ascii (c :: before) fun d hd => h d (List.mem_cons_of_mem _ hd)]
    rfl

/-- The characters of the words of a name are those of the name, less the underscores. -/
theorem of_mem_words {P : Char → Prop} {name : List Char} (h : ∀ c ∈ name, c ≠ '_' → P c) :
    (∀ c ∈ (words name).1, P c) ∧ ∀ word ∈ (words name).2, ∀ c ∈ word, P c := by
  have hchar : ∀ c, (c ∈ (words name).1 ∨ ∃ word ∈ (words name).2, c ∈ word) → P c := fun c hc =>
    have hname := (mem_words_iff name).mp hc
    h c hname.1 hname.2
  exact ⟨fun c hc => hchar c (Or.inl hc), fun word hword c hc => hchar c (Or.inr ⟨word, hword, hc⟩)⟩

/-! ## Kinds of characters -/

/-- A kind of ASCII characters that a change of case does not leave. -/
structure CaseClosed (P : Char → Prop) : Prop where
  ascii {c : Char} : P c → c.toNat < 0x80
  lower {c : Char} : P c → P c.toLower
  upper {c : Char} : P c → P c.toUpper

namespace CaseClosed

variable {P : Char → Prop} (hP : CaseClosed P) {x : Char}

include hP

theorem of_mem_titleChars : ∀ (afterLetter : Bool) {word : List Char},
    (∀ c ∈ word, P c) → x ∈ titleChars afterLetter word → P x
  | _, [], _, hx => by cases hx
  | afterLetter, c :: cs, h, hx => by
    obtain ⟨hc, hcs⟩ := List.forall_mem_cons.mp h
    rw [titleChars_ascii (hP.ascii hc)] at hx
    rcases List.mem_cons.mp hx with rfl | hx
    · split
      · exact hP.lower hc
      · exact hP.upper hc
    · exact of_mem_titleChars _ hcs hx

theorem of_mem_lowerChars {before word : List Char} (h : ∀ c ∈ word, P c)
    (hx : x ∈ lowerChars before word) : P x := by
  rw [lowerChars_ascii before fun c hc => hP.ascii (h c hc)] at hx
  obtain ⟨c, hc, rfl⟩ := List.mem_map.mp hx
  exact hP.lower (h c hc)

variable {name : List Char} (h : ∀ c ∈ name, c ≠ '_' → P c)

include h

theorem of_mem_pascalChars (hx : x ∈ pascalChars name) : P x := by
  obtain ⟨hfirst, hothers⟩ := of_mem_words h
  rw [pascalChars, List.mem_append, List.mem_flatMap] at hx
  rcases hx with hx | ⟨word, hword, hx⟩
  · exact hP.of_mem_titleChars _ hfirst hx
  · exact hP.of_mem_titleChars _ (hothers word hword) hx

theorem of_mem_camelChars (hx : x ∈ camelChars name) : P x := by
  obtain ⟨hfirst, hothers⟩ := of_mem_words h
  rw [camelChars, List.mem_append, List.mem_flatMap] at hx
  rcases hx with hx | ⟨word, hword, hx⟩
  · exact hP.of_mem_lowerChars hfirst hx
  · exact hP.of_mem_titleChars _ (hothers word hword) hx

end CaseClosed

theorem caseClosed_isAlphanum : CaseClosed fun c => c.isAlphanum = true :=
  ⟨ascii_of_isAlphanum, isAlphanum_toLower, isAlphanum_toUpper⟩

/-! ## Names -/

/-- An ASCII letter followed by ASCII letters, digits and underscores. -/
structure IsIdentifier (name : String) : Prop where
  letter : ∃ c ∈ name.toList.head?, c.isAlpha = true
  chars : ∀ c ∈ name.toList, c.isAlphanum = true ∨ c = '_'

instance (name : String) : Decidable (IsIdentifier name) :=
  decidable_of_iff ((∃ c ∈ name.toList.head?, c.isAlpha = true) ∧
      ∀ c ∈ name.toList, c.isAlphanum = true ∨ c = '_')
    ⟨fun ⟨hletter, hchars⟩ => ⟨hletter, hchars⟩, fun h => ⟨h.letter, h.chars⟩⟩

/-- An ASCII capital followed by ASCII letters and digits. -/
structure IsTypeName (name : String) : Prop where
  capital : ∃ c ∈ name.toList.head?, c.isUpper = true
  chars : ∀ c ∈ name.toList, c.isAlphanum = true

instance (name : String) : Decidable (IsTypeName name) :=
  decidable_of_iff ((∃ c ∈ name.toList.head?, c.isUpper = true) ∧
      ∀ c ∈ name.toList, c.isAlphanum = true)
    ⟨fun ⟨hcapital, hchars⟩ => ⟨hcapital, hchars⟩, fun h => ⟨h.capital, h.chars⟩⟩

variable {name : String}

theorem IsIdentifier.isAlphanum (h : IsIdentifier name) :
    ∀ c ∈ name.toList, c ≠ '_' → c.isAlphanum = true := fun c hc hunderscore =>
  (h.chars c hc).resolve_right hunderscore

/-- In Pascal case an identifier is a capital followed by letters and digits. -/
theorem isTypeName_pascalCase (h : IsIdentifier name) : IsTypeName (pascalCase name) := by
  refine ⟨?_, fun x hx => ?_⟩
  · obtain ⟨c, hhead, hletter⟩ := h.letter
    obtain ⟨cs, hname⟩ := List.head?_eq_some_iff.mp hhead
    have hc : c ≠ '_' := by
      rintro rfl
      cases hletter
    rw [pascalCase, String.toList_ofList, pascalChars, hname, Naming.words, pieces]
    simp only [if_neg hc, titleChars_ascii (ascii_of_isAlphanum (isAlphanum_of_isAlpha hletter))]
    exact ⟨_, rfl, isUpper_toUpper hletter⟩
  · rw [pascalCase, String.toList_ofList] at hx
    exact caseClosed_isAlphanum.of_mem_pascalChars h.isAlphanum hx

/-- In camel case an identifier has letters and digits only. -/
theorem isAlphanum_camelCase (h : IsIdentifier name) :
    ∀ c ∈ (camelCase name).toList, c.isAlphanum = true := by
  intro x hx
  rw [camelCase, String.toList_ofList] at hx
  exact caseClosed_isAlphanum.of_mem_camelChars h.isAlphanum hx

end Naming

end SchemaHeaders
