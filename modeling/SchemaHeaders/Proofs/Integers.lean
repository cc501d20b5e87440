import SchemaHeaders.Proofs.EnumHeaders
import SchemaHeaders.Proofs.FormatAgreement
import SchemaHeaders.Proofs.References

/-!
# Integers from documents to headers

A document may give any integer as the value of a member or as the length of a field. Whether it is
written as a line of JSON, read as JSON or as YAML, or in TOML, it is parsed exactly if each of
these integers is in its range, and then as the schema of the same integers (`parse_eq_ok_iff`).

`integers_exact` : of what is valid otherwise, a schema whose arrays are not empty becomes headers
that show each integer in decimal as the document has it, and an array of length zero is the only
fault that is left to find.
-/

namespace SchemaHeaders

/-! ## Wide schemas without other faults -/

/-- Nothing is wrong with a wide schema but perhaps its integers : underlying types are primitive, in
an enum only members with values follow one with a value, fields are of primitive or declared types,
and no declared name repeats. -/
structure WideSchema.Valid (w : WideSchema) : Prop where
  underlying : ∀ e ∈ w.enums, ∀ type, e.underlying = some type → ∃ p : Primitive, p.name = type
  values : ∀ e ∈ w.enums, e.members.Pairwise fun m m' => m.value ≠ none → m'.value ≠ none
  types : ∀ s ∈ w.structs, ∀ f ∈ s.fields,
    (∃ p : Primitive, p.name = f.typeName) ∨ f.typeName ∈ w.declaredNames
  distinct : w.declaredNames.Nodup

/-- The length of some field is zero. -/
def WideSchema.HasEmptyArray (w : WideSchema) : Prop :=
  ∃ s ∈ w.structs, ∃ f ∈ s.fields, f.length = some 0

/-! ## Headers with the integers of a document -/

/-- The line of a member, with the decimal text of its value. -/
def WideMember.line (m : WideMember) : String :=
  "\t" ++ pascalCase m.name ++ valueText m.value ++ ",\n"

/-- The line of a field, with the decimal text of its length. -/
def WideField.Line (units : List HeaderUnit) (f : WideField) (line : String) : Prop :=
  ∃ type, TypeSpelling units f.typeName type ∧
    line = "\t" ++ type ++ " " ++ camelCase f.name ++ lengthText f.length ++ ";\n"

/-- The header of an enum has a line for each of its members, in order. -/
def WideEnum.Header (e : WideEnum) (unit : HeaderUnit) : Prop :=
  ∃ underlying, UnderlyingText e.underlying underlying ∧
    unit.code = Cpp.frame (pascalCase e.name) ("enum " ++ pascalCase e.name ++ underlying ++
      "\n\x7b\n" ++ String.join (e.members.map WideMember.line) ++ "\x7d;\n")

/-- The header of a struct has a line for each of its fields, in order. -/
def WideStruct.Header (units : List HeaderUnit) (s : WideStruct) (unit : HeaderUnit) : Prop :=
  ∃ lines, List.Forall₂ (WideField.Line units) s.fields lines ∧
    unit.code = Cpp.frame (pascalCase s.name)
      ("struct " ++ pascalCase s.name ++ "\n\x7b\n" ++ String.join lines ++ "\x7d;\n")

/-- The headers of all entries, in order. -/
structure WideSchema.Headers (w : WideSchema) (generated : Generated) : Prop where
  enums : List.Forall₂ WideEnum.Header w.enums generated.enums
  structs : List.Forall₂ (WideStruct.Header generated.units) w.structs generated.structs

/-! ## Generating -/

section Generating

variable {schema : Schema} {generated : Generated}

/-- No enum is refused where underlying types are primitive and values stand last. -/
theorem exists_emitEnum_of_valid (hvalid : schema.wide.Valid) {e : EnumEntry}
    (he : e ∈ schema.enums) :
    ∃ underlying, UnderlyingText e.underlying underlying ∧
      emitEnum .cpp e = .ok (e.unit underlying) := by
  have hmem : e.wide ∈ schema.wide.enums := List.mem_map_of_mem he
  have hverdict := verdict_emitEnum e
  generalize emitEnum .cpp e = result at hverdict
  cases hverdict with
  | invalidType htype hnone =>
    obtain ⟨p, hp⟩ := hvalid.underlying _ hmem _ htype
    exact absurd hp (hnone p)
  | missingValue _ hgap =>
    obtain ⟨i, j, hij, ⟨valued, hi, hvalued⟩, unvalued, hj, hunvalued⟩ := hgap
    have hvalues := hvalid.values _ hmem
    rw [EnumEntry.wide, List.pairwise_map, List.pairwise_iff_getElem] at hvalues
    obtain ⟨hilt, rfl⟩ := List.getElem?_eq_some_iff.mp hi
    obtain ⟨hjlt, rfl⟩ := List.getElem?_eq_some_iff.mp hj
    refine absurd ?_ (hvalues i j hilt hjlt hij ?_)
    · rw [EnumMember.wide, hunvalued]
      rfl
    · simpa [EnumMember.wide] using hvalued
  | emitted htext _ => exact ⟨_, htext, rfl⟩

/-- Generating the headers of a schema without other faults finds an empty array, or succeeds. -/
theorem generate_of_valid (hvalid : schema.wide.Valid) :
    (∃ s f, (s, f) ∈ schema.fields ∧ f.length = some 0 ∧
      generate .cpp schema = .error (.invalidLength s.name f.name)) ∨
    ((∀ p ∈ schema.fields, p.2.length ≠ some 0) ∧
      ∃ generated, generate .cpp schema = .ok generated) := by
  have hverdict := verdict_generate .cpp schema
  generalize generate .cpp schema = result at hverdict
  cases hverdict with
  | refusedEnum hfirst he =>
    obtain ⟨underlying, -, hok⟩ := exists_emitEnum_of_valid hvalid hfirst.mem.1
    cases hok.symm.trans he
  | @undefinedType s f _ hfirst =>
    obtain ⟨hmem, hnone, hundeclared⟩ := hfirst.mem
    obtain ⟨s', hs, hf⟩ := List.mem_flatMap.mp hmem
    obtain ⟨f', hf, heq⟩ := List.mem_map.mp hf
    cases heq
    have htype := hvalid.types _ (List.mem_map_of_mem hs) _ (List.mem_map_of_mem hf)
    rcases htype with ⟨p, hp⟩ | hdeclared
    · exact absurd hp (hnone p)
    · rw [schema.declaredNames_wide] at hdeclared
      exact absurd hdeclared hundeclared
  | duplicateType _ _ _ hrepeats =>
    have hdistinct := hvalid.distinct
    rw [schema.declaredNames_wide] at hdistinct
    exact absurd hrepeats ((nodup_iff_not_repeatsAt _).mp hdistinct _)
  | invalidLength _ _ _ hfirst => exact Or.inl ⟨_, _, hfirst.mem.1, hfirst.mem.2, rfl⟩
  | accepted _ _ _ hlengths => exact Or.inr ⟨hlengths, _, rfl⟩

theorem hasEmptyArray_wide_iff (schema : Schema) :
    schema.wide.HasEmptyArray ↔ ∃ p ∈ schema.fields, p.2.length = some 0 := by
  have hzero : ∀ f : Field, f.wide.length = some 0 ↔ f.length = some 0 := by
    intro f
    cases hlength : f.length with
    | none => simp [Field.wide, hlength]
    | some n => simp [Field.wide, hlength, ← UInt32.toNat_inj]
  simp [WideSchema.HasEmptyArray, Schema.fields, Schema.wide, StructEntry.wide, hzero, and_assoc]

/-- The headers of a schema are those of its wide form. -/
theorem headers_of_generate (hvalid : schema.wide.Valid)
    (h : generate .cpp schema = .ok generated) : schema.wide.Headers generated := by
  constructor
  · have hverdict := verdict_generate .cpp schema
    rw [h] at hverdict
    cases hverdict with
    | accepted hunits =>
      rw [Schema.wide, List.forall₂_map_left_iff]
      refine List.Forall₂.imp ?_ ((List.forall₂_and_left _ _).mpr ⟨fun e he => he, hunits⟩)
      rintro e unit ⟨he, hunit⟩
      obtain ⟨underlying, htext, hok⟩ := exists_emitEnum_of_valid hvalid he
      obtain rfl := Except.ok.inj (hok.symm.trans hunit)
      refine ⟨underlying, htext, ?_⟩
      rw [EnumEntry.unit, EnumEntry.wide, List.map_map]
      rfl
  · rw [structs_of_generate h, Schema.wide, List.forall₂_map_left_iff, List.forall₂_map_right_iff,
      List.forall₂_same]
    intro s hs
    obtain ⟨lines, hlines, hcode⟩ := exists_lines_of_generate h hs
    refine ⟨lines, ?_, hcode⟩
    rw [StructEntry.wide, List.forall₂_map_left_iff]
    exact hlines

end Generating

/-! ## From documents to headers -/

/-- What is valid but for its integers is parsed in every format exactly if they are in range. Then
an array of length zero is refused, and without any the headers show each value and each length in
decimal. -/
theorem integers_exact {w : WideSchema} (hplain : ∀ s ∈ w.texts, ∀ c ∈ s.toList, IsPlain c)
    (hvalid : w.Valid) (format : Format) (source : String) :
    ((∃ schema, format.parse source (w.text format) = .ok schema) ↔ w.InRange) ∧
    ∀ schema, format.parse source (w.text format) = .ok schema →
      ((∃ structName field, generate .cpp schema = .error (.invalidLength structName field)) ↔
        w.HasEmptyArray) ∧
      (¬w.HasEmptyArray → ∃ generated, generate .cpp schema = .ok generated ∧
        w.Headers generated) := by
  simp only [parse_eq_ok_iff hplain]
  refine ⟨w.exists_wide_iff, ?_⟩
  rintro schema rfl
  rw [hasEmptyArray_wide_iff]
  rcases generate_of_valid hvalid with ⟨s, f, hmem, hzero, herror⟩ | ⟨hlengths, generated, hok⟩
  · have hempty : ∃ p ∈ schema.fields, p.2.length = some 0 := ⟨(s, f), hmem, hzero⟩
    exact ⟨iff_of_true ⟨_, _, herror⟩ hempty, fun hnot => absurd hempty hnot⟩
  · refine ⟨iff_of_false ?_ ?_, fun _ => ⟨generated, hok, headers_of_generate hvalid hok⟩⟩
    · rintro ⟨structName, field, herror⟩
      cases hok.symm.trans herror
    · rintro ⟨p, hp, hzero⟩
      exact hlengths p hp hzero

/-- A wide schema of the least and the greatest integers. -/
def WideSchema.extreme : WideSchema where
  enums := [⟨"limit", some "int32",
    [⟨"unknown", none⟩, ⟨"least", some (-2 ^ 63)⟩, ⟨"greatest", some (2 ^ 63 - 1)⟩]⟩]
  structs := [⟨"log entry",
    [⟨"kind", "limit", none⟩, ⟨"raw \"bytes\"", "uint8", some (2 ^ 32 - 1)⟩]⟩]

theorem integers_exact_extreme :
    (∀ s ∈ WideSchema.extreme.texts, ∀ c ∈ s.toList, IsPlain c) ∧ WideSchema.extreme.Valid ∧
      ∃ schema generated,
        Format.toml.parse "<toml>" (WideSchema.extreme.text .toml) = .ok schema ∧
        generate .cpp schema = .ok generated ∧ WideSchema.extreme.Headers generated := by
  have hplain : ∀ s ∈ WideSchema.extreme.texts, ∀ c ∈ s.toList, IsPlain c := by decide
  have hvalid : WideSchema.extreme.Valid := by
    have hint : ∃ p : Primitive, p.name = "int32" := ⟨.int32, rfl⟩
    have hbyte : ∃ p : Primitive, p.name = "uint8" := ⟨.uint8, rfl⟩
    refine ⟨by simpa [WideSchema.extreme] using hint, by decide, ?_, by decide⟩
    simp [WideSchema.extreme, WideSchema.declaredNames, hbyte]
  have hrange : WideSchema.extreme.InRange := by
    constructor <;> simp [WideSchema.extreme, WideMember.InRange, WideField.InRange]
  have hfull : ¬WideSchema.extreme.HasEmptyArray := by
    simp [WideSchema.extreme, WideSchema.HasEmptyArray]
  obtain ⟨haccepted, hexact⟩ := integers_exact hplain hvalid .toml "<toml>"
  obtain ⟨schema, hschema⟩ := haccepted.mpr hrange
  obtain ⟨generated, hgenerated, hheaders⟩ := (hexact schema hschema).2 hfull
  exact ⟨hplain, hvalid, schema, generated, hschema, hgenerated, hheaders⟩

end SchemaHeaders
