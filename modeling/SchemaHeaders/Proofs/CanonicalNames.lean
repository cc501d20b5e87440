import Mathlib.Data.List.SplitBy
import Mathlib.Data.List.TakeWhile
import SchemaHeaders.Proofs.Identifiers
import SchemaHeaders.Proofs.OwnFiles
import SchemaHeaders.Proofs.References

/-!
# Canonical names

Case conventions forget how a name was cut into words : `fooBar`, `foo_bar` and `Foo__Bar` are one
name in Pascal case. Nothing is forgotten of names in the convention that schemas are written in,
lowercase words with digits only at their ends, joined by single underscores (`IsCanonical`). A
capital then stands where a word begins and nowhere else, so that cutting before capitals gives the
words back (`snakeCase_pascalCase`, `snakeCase_camelCase`).

`distinct_of_canonical` : from an accepted schema of canonical names no two types, no two members of
one enum and no two fields of one struct get one name.
-/

namespace SchemaHeaders

open Text Naming

/-! ## Words joined by underscores -/

namespace Text

/-- Parts without the separator are the pieces of what they are when joined by it. -/
theorem pieces_intercalate {sep : Char} : ∀ (p : List Char) (ps : List (List Char)),
    (∀ q ∈ p :: ps, sep ∉ q) → pieces sep (List.intercalate [sep] (p :: ps)) = (p, ps)
  | p, [], h => by
    rw [List.intercalate_singleton]
    exact pieces_of_sep_not_mem (h p (List.mem_singleton.mpr rfl))
  | p, q :: ps, h => by
    rw [List.intercalate_cons_cons, List.append_assoc, List.singleton_append, pieces_append,
      pieces_of_sep_not_mem (h p (List.mem_cons_self ..)),
      pieces_intercalate q ps fun r hr => h r (List.mem_cons_of_mem _ hr)]
    rfl

/-- Joining the pieces of a text gives it back. -/
theorem intercalate_pieces (sep : Char) (cs : List Char) :
    List.intercalate [sep] ((pieces sep cs).1 :: (pieces sep cs).2) = cs := by
  induction cs with
  | nil => rfl
  | cons c cs ih =>
    by_cases hc : c = sep
    · simp only [pieces, if_pos hc]
      rw [List.intercalate_cons_cons, ih, hc]
      rfl
    · simp only [pieces, if_neg hc]
      cases hps : (pieces sep cs).2 with
      | nil =>
        rw [hps, List.intercalate_singleton] at ih
        rw [List.intercalate_singleton, ih]
      | cons q ps =>
        rw [hps, List.intercalate_cons_cons] at ih
        rw [List.intercalate_cons_cons, List.cons_append, List.cons_append, ih]

end Text

namespace Naming

/-- Words of a kind, one or more of them, joined by single underscores. -/
def Joined (P : List Char → Prop) (name : String) : Prop :=
  ∃ ws, ws ≠ [] ∧ (∀ w ∈ ws, P w) ∧ name.toList = List.intercalate ['_'] ws

variable {P : List Char → Prop} {name : String}

/-- A name is joined from the words that it is cut into. -/
theorem joined_iff (hP : ∀ w, P w → '_' ∉ w) :
    Joined P name ↔ ∀ w ∈ (words name.toList).1 :: (words name.toList).2, P w := by
  constructor
  · rintro ⟨ws, hne, hws, hname⟩
    obtain ⟨w, ws, rfl⟩ := List.exists_cons_of_ne_nil hne
    rw [hname, words, pieces_intercalate w ws fun v hv => hP v (hws v hv)]
    exact hws
  · intro h
    exact ⟨_, List.cons_ne_nil _ _, h, (intercalate_pieces '_' name.toList).symm⟩

/-! ## Canonical words -/

/-- Lowercase ASCII letters, one or more of them, and nothing but digits after them. -/
def IsCanonicalWord (word : List Char) : Prop :=
  word.takeWhile Char.isLower ≠ [] ∧ ∀ c ∈ word.dropWhile Char.isLower, c.isDigit = true

instance (word : List Char) : Decidable (IsCanonicalWord word) :=
  inferInstanceAs (Decidable (_ ∧ _))

/-- Digits are the same in both cases. -/
theorem titleChars_of_digits (afterLetter : Bool) {cs : List Char}
    (h : ∀ c ∈ cs, c.isDigit = true) : titleChars afterLetter cs = cs := by
  induction cs generalizing afterLetter with
  | nil => rfl
  | cons c cs ih =>
    have hc := h c (List.mem_cons_self ..)
    have hsmall : IsSmall c := Or.inr hc
    rw [titleChars_ascii hsmall.ascii, ih _ fun d hd => h d (List.mem_cons_of_mem _ hd),
      hsmall.toLower_eq, toUpper_of_isDigit hc, ite_self]

/-- After a letter, lowercase letters and the digits that follow them stay as they are. -/
theorem titleChars_of_letters {letters digits : List Char}
    (hletters : ∀ c ∈ letters, c.isLower = true) (hdigits : ∀ c ∈ digits, c.isDigit = true) :
    titleChars true (letters ++ digits) = letters ++ digits := by
  induction letters with
  | nil => exact titleChars_of_digits true hdigits
  | cons c cs ih =>
    have hc := hletters c (List.mem_cons_self ..)
    have hsmall : IsSmall c := Or.inl hc
    rw [List.cons_append, titleChars_ascii hsmall.ascii, isAlpha_of_isLower hc,
      ih fun d hd => hletters d (List.mem_cons_of_mem _ hd), if_pos rfl, hsmall.toLower_eq]

/-- A canonical word is a lowercase letter and further ones with digits, and title case changes
only the first letter. -/
theorem IsCanonicalWord.title {word : List Char} (h : IsCanonicalWord word) :
    ∃ c cs, word = c :: cs ∧ titleChars false word = c.toUpper :: cs ∧ c.isLower = true ∧
      ∀ d ∈ cs, IsSmall d := by
  obtain ⟨hne, hdigits⟩ := h
  have hword := List.takeWhile_append_dropWhile (p := Char.isLower) (l := word)
  have hletters : ∀ c ∈ word.takeWhile Char.isLower, c.isLower = true :=
    fun c hc => List.mem_takeWhile_imp hc
  obtain ⟨c, letters, hcons⟩ := List.exists_cons_of_ne_nil hne
  rw [hcons] at hword hletters
  obtain ⟨hc, hletters⟩ := List.forall_mem_cons.mp hletters
  have hsmall : IsSmall c := Or.inl hc
  refine ⟨c, letters ++ word.dropWhile Char.isLower, hword.symm, ?_, hc, ?_⟩
  · conv_lhs => rw [← hword]
    rw [List.cons_append, titleChars_ascii hsmall.ascii, isAlpha_of_isLower hc,
      titleChars_of_letters hletters hdigits]
    rfl
  · intro d hd
    exact (List.mem_append.mp hd).imp (hletters d) (hdigits d)

section Word

variable {word : List Char} (h : IsCanonicalWord word)

include h

theorem IsCanonicalWord.isSmall : ∀ c ∈ word, IsSmall c := by
  obtain ⟨c, cs, rfl, -, hc, hcs⟩ := h.title
  exact List.forall_mem_cons.mpr ⟨Or.inl hc, hcs⟩

theorem IsCanonicalWord.underscore_not_mem : '_' ∉ word := fun hmem =>
  absurd (h.isSmall '_' hmem) (by decide)

theorem IsCanonicalWord.flatMap_lower : word.flatMap lower = word := by
  rw [flatMap_lower_of_ascii fun c hc => (h.isSmall c hc).ascii, map_toLower_of_isSmall h.isSmall]

theorem IsCanonicalWord.lowerChars_eq : lowerChars [] word = word := by
  rw [lowerChars_ascii [] fun c hc => (h.isSmall c hc).ascii, map_toLower_of_isSmall h.isSmall]

theorem IsCanonicalWord.flatMap_lower_titleChars :
    (titleChars false word).flatMap lower = word := by
  have hlower := h.flatMap_lower
  obtain ⟨c, cs, rfl, htitle, hc, -⟩ := h.title
  have hsmall : IsSmall c := Or.inl hc
  have hupper := ascii_of_isAlphanum (isAlphanum_toUpper hsmall.isAlphanum)
  rw [List.flatMap_cons, lower_of_ascii hsmall.ascii, hsmall.toLower_eq] at hlower
  rw [htitle, List.flatMap_cons, lower_of_ascii hupper, hsmall.toLower_toUpper]
  exact hlower

end Word

/-! ## Cutting before capitals -/

/-- A part that a text is cut into before capitals : what follows its first character is none. -/
def IsHump (part : List Char) : Prop := ∃ c cs, part = c :: cs ∧ ∀ d ∈ cs, d.isUpper = false

/-- The parts of a text that is cut before each capital. -/
def humps (cs : List Char) : List (List Char) := cs.splitBy fun _ c => !c.isUpper

/-- Parts are those of the text that they make up if all of them but the first begin with a
capital. -/
theorem humps_flatten {part : List Char} {parts : List (List Char)}
    (hhumps : ∀ p ∈ part :: parts, IsHump p)
    (hcapitals : ∀ p ∈ parts, ∃ c ∈ p.head?, c.isUpper = true) :
    humps (part :: parts).flatten = part :: parts := by
  refine List.splitBy_flatten ?_ ?_ ?_
  · intro hnil
    obtain ⟨_, _, hcons, -⟩ := hhumps [] hnil
    cases hcons
  · intro p hp
    obtain ⟨c, cs, rfl, hcs⟩ := hhumps p hp
    exact (List.isChain_isInfix _).imp_of_mem_tail_imp fun _ d _ hd _ => by simp [hcs d hd]
  · refine (List.isChain_isInfix _).imp_of_mem_tail_imp fun p q hp hq _ => ?_
    obtain ⟨_, _, rfl, -⟩ := hhumps p hp
    obtain ⟨c, hhead, hc⟩ := hcapitals q hq
    obtain ⟨cs, rfl⟩ := List.head?_eq_some_iff.mp hhead
    exact ⟨List.cons_ne_nil _ _, List.cons_ne_nil _ _, by simp [hc]⟩

theorem IsCanonicalWord.isHump {word : List Char} (h : IsCanonicalWord word) : IsHump word := by
  obtain ⟨c, cs, rfl, -, -, hcs⟩ := h.title
  exact ⟨c, cs, rfl, fun d hd => (hcs d hd).isUpper_eq⟩

theorem IsCanonicalWord.isHump_titleChars {word : List Char} (h : IsCanonicalWord word) :
    IsHump (titleChars false word) := by
  obtain ⟨c, cs, -, htitle, -, hcs⟩ := h.title
  exact ⟨c.toUpper, cs, htitle, fun d hd => (hcs d hd).isUpper_eq⟩

theorem IsCanonicalWord.capital_titleChars {word : List Char} (h : IsCanonicalWord word) :
    ∃ c ∈ (titleChars false word).head?, c.isUpper = true := by
  obtain ⟨c, cs, -, htitle, hc, -⟩ := h.title
  exact ⟨c.toUpper, by rw [htitle]; rfl, isUpper_toUpper (isAlpha_of_isLower hc)⟩

end Naming

/-! ## Names -/

/-- A name cut before each capital, the parts in lower case and joined by underscores. -/
def snakeCase (name : String) : String :=
  String.ofList (List.intercalate ['_'] ((humps name.toList).map (·.flatMap lower)))

/-- A name of canonical words joined by single underscores. -/
def IsCanonical (name : String) : Prop := Joined IsCanonicalWord name

theorem isCanonical_iff (name : String) :
    IsCanonical name ↔ ∀ w ∈ (words name.toList).1 :: (words name.toList).2, IsCanonicalWord w :=
  joined_iff fun _ hw => hw.underscore_not_mem

instance (name : String) : Decidable (IsCanonical name) :=
  decidable_of_iff _ (isCanonical_iff name).symm

section Names

variable {name : String} (h : IsCanonical name)

include h

/-- The words of a name come back if all but the first are in title case, and the first in some
case that keeps it one part. -/
theorem snakeCase_eq {text : String} {part : List Char} (hhump : IsHump part)
    (hlower : part.flatMap lower = (words name.toList).1)
    (htext : text.toList = part ++ (words name.toList).2.flatMap (titleChars false)) :
    snakeCase text = name := by
  obtain ⟨-, hothers⟩ := List.forall_mem_cons.mp ((isCanonical_iff name).mp h)
  have hparts : text.toList =
      (part :: (words name.toList).2.map (titleChars false)).flatten := by
    rw [htext, List.flatten_cons, List.flatMap_def]
  have hhumps : humps text.toList = part :: (words name.toList).2.map (titleChars false) := by
    rw [hparts]
    refine humps_flatten (List.forall_mem_cons.mpr ⟨hhump, ?_⟩) ?_
    · exact List.forall_mem_map.mpr fun w hw => (hothers w hw).isHump_titleChars
    · exact List.forall_mem_map.mpr fun w hw => (hothers w hw).capital_titleChars
  have hwords : (words name.toList).2.map (fun w => (titleChars false w).flatMap lower) =
      (words name.toList).2 := by
    conv_rhs => rw [← List.map_id (words name.toList).2]
    exact List.map_congr_left fun w hw => (hothers w hw).flatMap_lower_titleChars
  rw [snakeCase, hhumps, List.map_cons, List.map_map, hlower, Function.comp_def, hwords, words,
    intercalate_pieces, String.ofList_toList]

theorem snakeCase_pascalCase : snakeCase (pascalCase name) = name := by
  have hfirst := (isCanonical_iff name).mp h _ (List.mem_cons_self ..)
  exact snakeCase_eq h hfirst.isHump_titleChars hfirst.flatMap_lower_titleChars
    (String.toList_ofList ..)

theorem snakeCase_camelCase : snakeCase (camelCase name) = name := by
  have hfirst := (isCanonical_iff name).mp h _ (List.mem_cons_self ..)
  refine snakeCase_eq h hfirst.isHump hfirst.flatMap_lower ?_
  have hcamel : (camelCase name).toList =
      lowerChars [] (words name.toList).1 ++ (words name.toList).2.flatMap (titleChars false) :=
    String.toList_ofList ..
  rw [hcamel, hfirst.lowerChars_eq]

end Names

/-- Canonical names stay different in a case that they come back from. -/
theorem nodup_of_snakeCase {case : String → String}
    (hcase : ∀ {name : String}, IsCanonical name → snakeCase (case name) = name)
    {names : List String} (h : ∀ name ∈ names, IsCanonical name) (hnodup : names.Nodup) :
    (names.map case).Nodup :=
  hnodup.map_on fun name hname name' hname' heq => by
    rw [← hcase (h name hname), heq, hcase (h name' hname')]

/-! ## Schemas -/

/-- All names of a schema are canonical, and those of the members of one enum and of the fields of
one struct differ. -/
structure Schema.Canonical (schema : Schema) : Prop where
  declared : ∀ name ∈ schema.declaredNames, IsCanonical name
  members : ∀ e ∈ schema.enums, ∀ name ∈ e.members.map (·.name), IsCanonical name
  fields : ∀ s ∈ schema.structs, ∀ name ∈ s.fields.map (·.name), IsCanonical name
  membersDiffer : ∀ e ∈ schema.enums, (e.members.map (·.name)).Nodup
  fieldsDiffer : ∀ s ∈ schema.structs, (s.fields.map (·.name)).Nodup

variable {backend : Backend} {schema : Schema} {generated : Generated}

theorem enums_of_generate (h : generate backend schema = .ok generated) :
    List.Forall₂ (fun e unit => emitEnum backend e = .ok unit) schema.enums generated.enums := by
  have hverdict := verdict_generate backend schema
  rw [h] at hverdict
  cases hverdict with
  | accepted hunits => exact hunits

/-- The type names of all units are the declared names in Pascal case. -/
theorem typeNames_of_units (h : generate backend schema = .ok generated) :
    generated.units.map (·.typeName) = schema.declaredNames.map pascalCase := by
  rw [← names_of_generate h, List.map_map]
  exact List.map_congr_left fun unit hunit => typeName_of_mem_units h hunit

theorem typeNames_nodup_of_canonical (h : generate backend schema = .ok generated)
    (hnames : ∀ name ∈ schema.declaredNames, IsCanonical name) :
    (generated.units.map (·.typeName)).Nodup := by
  rw [typeNames_of_units h]
  exact nodup_of_snakeCase snakeCase_pascalCase hnames (declaredNames_nodup_of_generate h)

/-- Canonical names come back from both cases, so that in the headers of an accepted schema with
such names all types have names of their own, and so have the members of each enum and the
fields of each struct. -/
theorem distinct_of_canonical :
    (∀ name, IsCanonical name →
        snakeCase (pascalCase name) = name ∧ snakeCase (camelCase name) = name) ∧
      ∀ {backend : Backend} {schema : Schema} {generated : Generated}, schema.Canonical →
        generate backend schema = .ok generated →
        (generated.units.map (·.typeName)).Nodup ∧
        List.Forall₂ (fun e unit => ∃ decl : EnumDecl,
            unit.code = backend.frame unit.typeName (backend.renderEnum decl) ∧
            decl.members = e.members.map (·.declare) ∧ (decl.members.map (·.name)).Nodup)
          schema.enums generated.enums ∧
        List.Forall₂ (fun s unit => ∃ decl : StructDecl,
            unit.code = backend.frame unit.typeName (backend.renderStruct decl) ∧
            decl.fields = s.fields.map (·.declare) ∧ (decl.fields.map (·.name)).Nodup)
          schema.structs generated.structs := by
  refine ⟨fun name hname => ⟨snakeCase_pascalCase hname, snakeCase_camelCase hname⟩, ?_⟩
  intro backend schema generated hcanonical h
  refine ⟨typeNames_nodup_of_canonical h hcanonical.declared, ?_, ?_⟩
  · refine ((List.forall₂_and_left _ _).mpr ⟨fun e he => he, enums_of_generate h⟩).imp ?_
    rintro e unit ⟨he, hunit⟩
    obtain ⟨underlying, -, rfl⟩ := emitEnum_declares hunit
    refine ⟨_, rfl, rfl, ?_⟩
    have hnodup := nodup_of_snakeCase snakeCase_pascalCase (hcanonical.members e he)
      (hcanonical.membersDiffer e he)
    rw [List.map_map] at hnodup ⊢
    exact hnodup
  · rw [structs_of_generate h, List.forall₂_map_right_iff, List.forall₂_same]
    intro s hs
    refine ⟨_, rfl, rfl, ?_⟩
    have hnodup := nodup_of_snakeCase snakeCase_camelCase (hcanonical.fields s hs)
      (hcanonical.fieldsDiffer s hs)
    rw [List.map_map] at hnodup ⊢
    exact hnodup

/-- Names that differ by an underscore or a digit only. -/
def Schema.close : Schema where
  enums := [⟨"ab_c", none, [⟨"x_y", none⟩, ⟨"xy", none⟩, ⟨"xy1", none⟩]⟩, ⟨"ab_c2", none, []⟩]
  structs := [⟨"abc", [⟨"x_y", "ab_c", none⟩, ⟨"xy", "ab_c2", some 3⟩, ⟨"x", "abc", none⟩]⟩]

theorem canonical_close : Schema.close.Canonical :=
  ⟨by decide, by decide, by decide, by decide, by decide⟩

theorem distinct_of_canonical_close :
    snakeCase (pascalCase "ab_c2") = "ab_c2" ∧
      ∃ generated, generate .cpp .close = .ok generated ∧
        generated.units.map (·.typeName) = ["AbC", "AbC2", "Abc"] ∧
        (generated.units.map (·.typeName)).Nodup := by
  have htypeNames : (generate .cpp .close).map (·.units.map (·.typeName)) =
      .ok ["AbC", "AbC2", "Abc"] := by
    decide +kernel
  cases h : generate .cpp .close with
  | error failure =>
    rw [h] at htypeNames
    cases htypeNames
  | ok generated =>
    rw [h] at htypeNames
    obtain ⟨hround, hdistinct⟩ := distinct_of_canonical
    exact ⟨(hround "ab_c2" (by decide)).1, generated, rfl, Except.ok.inj htypeNames,
      (hdistinct canonical_close h).1⟩

end SchemaHeaders
