import SchemaHeaders.Proofs.Identifiers
import SchemaHeaders.Proofs.Marks

/-!
# Laws of the case conventions

A name is cut at its underscores, and each word is put in its case by itself. So what an underscore
joins is one after the other in Pascal case and in camel case, and no underscore is left; and title
case looks back no further than to the character before, so that a word can be cut where no letter
stands (`case_concat`).

ASCII letters stay letters when their case is changed, and the other characters stay as they are. A
second pass therefore meets letters in the same places as the first, and changes nothing unless the
first has taken underscores away (`apply_stable`).
-/

namespace SchemaHeaders

open Text Naming

namespace Naming

/-! ## Names in parts -/

/-- The words of two names that an underscore joins are those of the one and those of the other. -/
theorem words_underscore (a b : List Char) :
    words (a ++ '_' :: b) = ((words a).1, (words a).2 ++ (words b).1 :: (words b).2) :=
  pieces_append '_' a b

theorem pascalChars_underscore (a b : List Char) :
    pascalChars (a ++ '_' :: b) = pascalChars a ++ pascalChars b := by
  simp only [pascalChars, words_underscore, List.flatMap_append, List.flatMap_cons,
    List.append_assoc]

/-- The first word is that of the first part. -/
theorem camelChars_underscore (a b : List Char) :
    camelChars (a ++ '_' :: b) = camelChars a ++ pascalChars b := by
  simp only [camelChars, pascalChars, words_underscore, List.flatMap_append, List.flatMap_cons,
    List.append_assoc]

theorem isMark_underscore : IsMark '_' := ⟨by decide, by decide, by decide⟩

theorem underscore_not_mem_pascalChars (name : List Char) : '_' ∉ pascalChars name := fun h =>
  ((mem_pascalChars_iff isMark_underscore name).mp h).2 rfl

theorem underscore_not_mem_camelChars (name : List Char) : '_' ∉ camelChars name := fun h =>
  ((mem_camelChars_iff isMark_underscore name).mp h).2 rfl

/-! ## Words in parts -/

/-- Whether a letter stands before what follows a text, where `afterLetter` says it of the text. -/
def letterAfter (afterLetter : Bool) (text : List Char) : Bool :=
  (text.getLast?.map isAlphabetic).getD afterLetter

theorem letterAfter_cons (afterLetter : Bool) (c : Char) (cs : List Char) :
    letterAfter afterLetter (c :: cs) = letterAfter (isAlphabetic c) cs := by
  cases cs with
  | nil => rfl
  | cons d cs => rw [letterAfter, letterAfter, List.getLast?_cons_cons, List.getLast?_cons]; rfl

/-- Title case carries nothing from one part of a word to the next but whether a letter stands
between. -/
theorem titleChars_append (afterLetter : Bool) (u v : List Char) :
    titleChars afterLetter (u ++ v) =
      titleChars afterLetter u ++ titleChars (letterAfter afterLetter u) v := by
  induction u generalizing afterLetter with
  | nil => rfl
  | cons c cs ih =>
    rw [List.cons_append, titleChars, titleChars, ih, letterAfter_cons, List.append_assoc]

/-! ## Names of ASCII characters -/

theorem caseClosed_ascii : CaseClosed fun c => c.toNat < 0x80 :=
  ⟨id, of_ascii (P := fun c => c.toLower.toNat < 0x80) (by decide),
    of_ascii (P := fun c => c.toUpper.toNat < 0x80) (by decide)⟩

/-- An ASCII letter stays a letter, and its case is changed no further by the same change. -/
theorem toCase_ascii (afterLetter : Bool) {c : Char} (hc : c.toNat < 0x80) :
    let d := if afterLetter then c.toLower else c.toUpper
    d.isAlpha = c.isAlpha ∧ (if afterLetter then d.toLower else d.toUpper) = d := by
  cases afterLetter with
  | true =>
    exact of_ascii (P := fun c => c.toLower.isAlpha = c.isAlpha ∧ c.toLower.toLower = c.toLower)
      (by decide) hc
  | false =>
    exact of_ascii (P := fun c => c.toUpper.isAlpha = c.isAlpha ∧ c.toUpper.toUpper = c.toUpper)
      (by decide) hc

/-- A second pass meets a letter before each character where the first met one. -/
theorem titleChars_titleChars (afterLetter : Bool) {word : List Char}
    (h : ∀ c ∈ word, c.toNat < 0x80) :
    titleChars afterLetter (titleChars afterLetter word) = titleChars afterLetter word := by
  induction word generalizing afterLetter with
  | nil => rfl
  | cons c cs ih =>
    obtain ⟨hc, hcs⟩ := List.forall_mem_cons.mp h
    obtain ⟨hletter, hsame⟩ := toCase_ascii afterLetter hc
    have hascii : (if afterLetter then c.toLower else c.toUpper).toNat < 0x80 := by
      split
      · exact caseClosed_ascii.lower hc
      · exact caseClosed_ascii.upper hc
    rw [titleChars_ascii hc, titleChars_ascii hascii, hletter, hsame, ih _ hcs]

theorem lowerChars_lowerChars {word : List Char} (h : ∀ c ∈ word, c.toNat < 0x80) :
    lowerChars [] (lowerChars [] word) = lowerChars [] word := by
  have hlower : ∀ c ∈ lowerChars [] word, c.toNat < 0x80 := fun c hc =>
    caseClosed_ascii.of_mem_lowerChars h hc
  rw [lowerChars_ascii [] hlower, lowerChars_ascii [] h, List.map_map]
  exact List.map_congr_left fun c hc => (toCase_ascii true (h c hc)).2

section Word

variable {name : List Char} (h : '_' ∉ name)

include h

/-- A name without underscores is one word. -/
theorem pascalChars_of_word : pascalChars name = titleChars false name := by
  rw [pascalChars, words, pieces_of_sep_not_mem h]
  exact List.append_nil _

theorem camelChars_of_word : camelChars name = lowerChars [] name := by
  rw [camelChars, words, pieces_of_sep_not_mem h]
  exact List.append_nil _

theorem pascalChars_pascalChars (hascii : ∀ c ∈ name, c.toNat < 0x80) :
    pascalChars (pascalChars name) = pascalChars name := by
  rw [pascalChars_of_word (underscore_not_mem_pascalChars name), pascalChars_of_word h,
    titleChars_titleChars false hascii]

theorem camelChars_camelChars (hascii : ∀ c ∈ name, c.toNat < 0x80) :
    camelChars (camelChars name) = camelChars name := by
  rw [camelChars_of_word (underscore_not_mem_camelChars name), camelChars_of_word h,
    lowerChars_lowerChars hascii]

end Word

end Naming

/-! ## Names in their places -/

variable {name : String}

theorem ascii_of_mem_apply (role : NameRole) (h : ∀ c ∈ name.toList, c.toNat < 0x80) :
    ∀ c ∈ (role.apply name).toList, c.toNat < 0x80 := by
  intro c hc
  cases role with
  | typeName | enumMember =>
    rw [NameRole.apply, pascalCase, String.toList_ofList] at hc
    exact caseClosed_ascii.of_mem_pascalChars (fun d hd _ => h d hd) hc
  | structMember =>
    rw [NameRole.apply, camelCase, String.toList_ofList] at hc
    exact caseClosed_ascii.of_mem_camelChars (fun d hd _ => h d hd) hc
  | verbatim => exact h c hc

/-- Only what is written as it stands keeps its underscores. -/
theorem underscore_not_mem_apply {role : NameRole} (hrole : role ≠ .verbatim) (name : String) :
    '_' ∉ (role.apply name).toList := by
  cases role with
  | typeName | enumMember =>
    rw [NameRole.apply, pascalCase, String.toList_ofList]
    exact underscore_not_mem_pascalChars _
  | structMember =>
    rw [NameRole.apply, camelCase, String.toList_ofList]
    exact underscore_not_mem_camelChars _
  | verbatim => exact absurd rfl hrole

theorem apply_apply (role : NameRole) (hascii : ∀ c ∈ name.toList, c.toNat < 0x80)
    (h : '_' ∉ name.toList) : role.apply (role.apply name) = role.apply name := by
  cases role with
  | typeName | enumMember =>
    simp only [NameRole.apply, pascalCase, String.toList_ofList]
    rw [pascalChars_pascalChars h hascii]
  | structMember =>
    simp only [NameRole.apply, camelCase, String.toList_ofList]
    rw [camelChars_camelChars h hascii]
  | verbatim => rfl

/-- The case of an ASCII name for its place stays when it is changed for the same place again, if the
name has no underscore; and in any case from the second time on. -/
theorem apply_stable (role : NameRole) (hascii : ∀ c ∈ name.toList, c.toNat < 0x80) :
    ('_' ∉ name.toList → role.apply (role.apply name) = role.apply name) ∧
      role.apply (role.apply (role.apply name)) = role.apply (role.apply name) := by
  refine ⟨apply_apply role hascii, ?_⟩
  by_cases hrole : role = .verbatim
  · rw [hrole]
    rfl
  · exact apply_apply role (ascii_of_mem_apply role hascii) (underscore_not_mem_apply hrole name)

/-- The one name changes once, the other twice. -/
theorem apply_stable_hash :
    NameRole.structMember.apply (NameRole.structMember.apply "firmware-hash8X") =
        NameRole.structMember.apply "firmware-hash8X" ∧
      NameRole.structMember.apply "Firmware_HASH 8x" = "firmwareHash 8X" ∧
      NameRole.structMember.apply "firmwareHash 8X" = "firmwarehash 8x" ∧
      NameRole.structMember.apply "firmwarehash 8x" = "firmwarehash 8x" := by
  have honce := (@apply_stable "firmware-hash8X" .structMember (by decide)).1 (by decide)
  have htwice := (@apply_stable "Firmware_HASH 8x" .structMember (by decide)).2
  have hfirst : NameRole.structMember.apply "Firmware_HASH 8x" = "firmwareHash 8X" := by decide
  have hsecond : NameRole.structMember.apply "firmwareHash 8X" = "firmwarehash 8x" := by decide
  rw [hfirst, hsecond] at htwice
  exact ⟨honce, hfirst, hsecond, htwice⟩

/-- An underscore separates what can be put in its case part by part, and stays in neither case. A
word can be put in title case part by part where no letter stands between. -/
theorem case_concat (a b : String) :
    pascalCase (a ++ "_" ++ b) = pascalCase a ++ pascalCase b ∧
      camelCase (a ++ "_" ++ b) = camelCase a ++ pascalCase b ∧
      '_' ∉ (pascalCase a).toList ∧ '_' ∉ (camelCase a).toList ∧
      ∀ u v : String, (u = "" ∨ ∃ c ∈ u.toList.getLast?, isAlphabetic c = false) →
        titleCase (u ++ v) = titleCase u ++ titleCase v := by
  have hjoined : (a ++ "_" ++ b).toList = a.toList ++ '_' :: b.toList := by simp
  refine ⟨?_, ?_, ?_, ?_, fun u v h => ?_⟩
  · rw [pascalCase, hjoined, pascalChars_underscore, String.ofList_append]
    rfl
  · rw [camelCase, hjoined, camelChars_underscore, String.ofList_append]
    rfl
  · exact @underscore_not_mem_apply .typeName (by decide) a
  · exact @underscore_not_mem_apply .structMember (by decide) a
  · have hboundary : letterAfter false u.toList = false := by
      rcases h with rfl | ⟨c, hlast, hc⟩
      · rfl
      · rw [letterAfter, hlast]
        exact hc
    rw [titleCase, String.toList_append, titleChars_append, hboundary, String.ofList_append]
    rfl

/-- A letter that becomes two, and a word that is cut after a sign. -/
theorem case_concat_sharp :
    pascalCase ("straße" ++ "_" ++ "ßa") = pascalCase "straße" ++ "SSa" ∧
      titleCase ("a-" ++ "ßb") = "A-" ++ "SSb" := by
  obtain ⟨hpascal, -, -, -, htitle⟩ := case_concat "straße" "ßa"
  refine ⟨hpascal, (htitle "a-" "ßb" (Or.inr ⟨'-', by decide, by decide⟩)).trans ?_⟩
  decide +kernel

end SchemaHeaders
