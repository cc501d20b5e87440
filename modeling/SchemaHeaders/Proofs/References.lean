import SchemaHeaders.Proofs.Verdict

/-!
# Struct headers and the types they refer to

A field of a struct refers to its type by the name in the schema, while headers spell types by
names of their own. `structHeaders_of_generate` : in an accepted schema each type that a
struct requires is declared by one unit alone (`HeaderUnit.SoleOwner`), before the struct,
after it or by the struct itself, and the header of the struct spells the type as that unit
spells its own (`TypeSpelling`).

The declared names of the units are those of the schema, in order (`names_of_generate`), and
their type names are these in Pascal case (`typeName_of_mem_units`).
-/

namespace SchemaHeaders

variable {backend : Backend} {schema : Schema} {generated : Generated}

/-! ## Units and declared names -/

/-- All units, those of enums before those of structs. -/
def Generated.units (generated : Generated) : List HeaderUnit :=
  generated.enums ++ generated.structs

/-- The units of an accepted schema have its declared names, in order. -/
theorem names_of_generate (h : generate backend schema = .ok generated) :
    generated.units.map (·.name) = schema.declaredNames := by
  have hverdict := verdict_generate backend schema
  rw [h] at hverdict
  cases hverdict with
  | accepted hunits =>
    rw [Generated.units, List.map_append, map_of_emitted name_of_emitEnum hunits, List.map_map]
    rfl

/-- The type name of a unit is its declared name in Pascal case. -/
theorem typeName_of_mem_units (h : generate backend schema = .ok generated) {unit : HeaderUnit}
    (hunit : unit ∈ generated.units) : unit.typeName = pascalCase unit.name := by
  have hverdict := verdict_generate backend schema
  rw [h] at hverdict
  cases hverdict with
  | accepted hunits =>
    rcases List.mem_append.mp hunit with henum | hstruct
    · obtain ⟨e, -, he⟩ := exists_of_mem_emitted hunits henum
      obtain ⟨decl, rfl⟩ := emitEnum_ok he
      rfl
    · obtain ⟨s, -, rfl⟩ := List.mem_map.mp hstruct
      rfl

/-! ## Owners of type names -/

/-- One unit of a list, and no other, goes by a name. -/
def HeaderUnit.SoleOwner (units : List HeaderUnit) (name : String) (owner : HeaderUnit) : Prop :=
  ∃ before after, units = before ++ owner :: after ∧ owner.name = name ∧
    ∀ other ∈ before ++ after, other.name ≠ name

/-- Where names do not repeat, each is that of one unit alone. -/
theorem HeaderUnit.exists_soleOwner {units : List HeaderUnit} {name : String}
    (hnodup : (units.map (·.name)).Nodup) (hname : name ∈ units.map (·.name)) :
    ∃ owner, SoleOwner units name owner := by
  obtain ⟨owner, howner, rfl⟩ := List.mem_map.mp hname
  obtain ⟨before, after, rfl⟩ := List.append_of_mem howner
  refine ⟨owner, before, after, rfl, rfl, fun other hother heq => ?_⟩
  have hperm : ((before ++ owner :: after).map (·.name)).Perm
      (owner.name :: (before ++ after).map (·.name)) :=
    List.perm_middle.map _
  exact (List.nodup_cons.mp (hperm.nodup_iff.mp hnodup)).1 (List.mem_map.mpr ⟨other, hother, heq⟩)

/-- How headers spell the type of a name : a primitive type as the language does, and a
declared type as the one unit that declares it. -/
inductive TypeSpelling (units : List HeaderUnit) (name : String) : String → Prop
  | primitive {p : Primitive} : p.name = name → TypeSpelling units name (Cpp.spelling p)
  | declared {owner : HeaderUnit} : (∀ p : Primitive, p.name ≠ name) →
      HeaderUnit.SoleOwner units name owner → TypeSpelling units name owner.typeName

/-! ## Struct headers -/

/-- What follows the name of a field on its line : its length in brackets, if it has one. -/
def lengthText : Option Int → String
  | some z => "[" ++ toString z ++ "]"
  | none => ""

/-- The line of a field in a header. -/
def FieldLine (units : List HeaderUnit) (f : Field) (line : String) : Prop :=
  ∃ type, TypeSpelling units f.typeName type ∧
    line = "\t" ++ type ++ " " ++ camelCase f.name ++
      lengthText (f.length.map fun n => (n.toNat : Int)) ++ ";\n"

/-- The unit of a struct among the units of a schema. -/
structure StructHeader (units : List HeaderUnit) (s : StructEntry) (unit : HeaderUnit) : Prop where
  name : unit.name = s.name
  typeName : unit.typeName = pascalCase s.name
  required : unit.requiredTypes =
    (s.fields.map (·.typeName)).filter (· ∉ Primitive.all.map Primitive.name)
  owned : ∀ type ∈ unit.requiredTypes, ∃ owner, HeaderUnit.SoleOwner units type owner
  code : ∃ lines, List.Forall₂ (FieldLine units) s.fields lines ∧
    unit.code = Cpp.frame unit.typeName
      ("struct " ++ unit.typeName ++ "\n\x7b\n" ++ String.join lines ++ "\x7d;\n")

theorem lengthSuffix_eq (length : Option UInt32) :
    Cpp.lengthSuffix length = lengthText (length.map fun n => (n.toNat : Int)) := by
  cases length with
  | none => rfl
  | some n => rw [Cpp.lengthSuffix, Text.digits_eq_toDigits]; rfl

theorem not_mem_names_iff (type : String) :
    type ∉ Primitive.all.map Primitive.name ↔ ∀ p : Primitive, p.name ≠ type := by
  simp [Primitive.mem_all]

theorem requiredTypes_eq (fields : List Field) :
    requiredTypes fields =
      (fields.map (·.typeName)).filter (· ∉ Primitive.all.map Primitive.name) := by
  refine List.filter_congr fun type _ => ?_
  rw [Bool.eq_iff_iff, Option.isNone_iff_eq_none, ofName?_eq_none_iff, decide_eq_true_iff,
    not_mem_names_iff]

/-- The line of a field whose type is declared, if it is not primitive. -/
theorem fieldLine_declare {units : List HeaderUnit} {f : Field}
    (htypeNames : ∀ unit ∈ units, unit.typeName = pascalCase unit.name)
    (howned : (∀ p : Primitive, p.name ≠ f.typeName) →
      ∃ owner, HeaderUnit.SoleOwner units f.typeName owner) :
    FieldLine units f (Cpp.fieldLine f.declare) := by
  refine ⟨Cpp.typeSpelling f.declare.type, ?_, by rw [Cpp.fieldLine, lengthSuffix_eq]; rfl⟩
  rw [Field.declare]
  cases hprimitive : Primitive.ofName? f.typeName with
  | some p => exact .primitive (Primitive.name_of_ofName? hprimitive)
  | none =>
    have hnone := (ofName?_eq_none_iff f.typeName).mp hprimitive
    obtain ⟨owner, howner⟩ := howned hnone
    obtain ⟨before, after, hunits, hname, -⟩ := id howner
    have hspelling : owner.typeName = pascalCase f.typeName := by
      rw [← hname]
      exact htypeNames owner (by simp [hunits])
    have hdeclared := TypeSpelling.declared hnone howner
    rw [hspelling] at hdeclared
    exact hdeclared

/-- A type that a field of an accepted schema refers to has one owner. -/
theorem exists_soleOwner_of_field (h : generate backend schema = .ok generated) {s : StructEntry}
    (hs : s ∈ schema.structs) {f : Field} (hf : f ∈ s.fields)
    (hnone : ∀ p : Primitive, p.name ≠ f.typeName) :
    ∃ owner, HeaderUnit.SoleOwner generated.units f.typeName owner := by
  have hnames := names_of_generate h
  have hverdict := verdict_generate backend schema
  rw [h] at hverdict
  cases hverdict with
  | accepted _ hdeclared hdistinct =>
    have hmem : f.typeName ∈ schema.declaredNames := by
      by_contra hundeclared
      have hfield : (s, f) ∈ schema.fields :=
        List.mem_flatMap.mpr ⟨s, hs, List.mem_map.mpr ⟨f, hf, rfl⟩⟩
      exact hdeclared _ hfield ⟨hnone, hundeclared⟩
    rw [← hnames] at hmem hdistinct
    exact HeaderUnit.exists_soleOwner hdistinct hmem

theorem structs_of_generate (h : generate backend schema = .ok generated) :
    generated.structs = schema.structs.map (emitStruct backend) := by
  have hverdict := verdict_generate backend schema
  rw [h] at hverdict
  cases hverdict
  rfl

/-- The header of a struct of an accepted schema has a line for each of its fields, in order. -/
theorem exists_lines_of_generate (h : generate backend schema = .ok generated) {s : StructEntry}
    (hs : s ∈ schema.structs) :
    ∃ lines, List.Forall₂ (FieldLine generated.units) s.fields lines ∧
      (emitStruct .cpp s).code = Cpp.frame (pascalCase s.name)
        ("struct " ++ pascalCase s.name ++ "\n\x7b\n" ++ String.join lines ++ "\x7d;\n") := by
  refine ⟨s.fields.map fun f => Cpp.fieldLine f.declare, ?_, ?_⟩
  · rw [List.forall₂_map_right_iff, List.forall₂_same]
    intro f hf
    exact fieldLine_declare (fun _ => typeName_of_mem_units h) (exists_soleOwner_of_field h hs hf)
  · simp only [emitStruct, Backend.cpp, Cpp.renderStruct, List.map_map]
    rfl

/-- Each struct of an accepted schema has a header in which its fields are spelled in order, the
declared types among them as the headers that declare them do. -/
theorem structHeaders_of_generate (h : generate .cpp schema = .ok generated) :
    List.Forall₂ (StructHeader generated.units) schema.structs generated.structs := by
  rw [structs_of_generate h, List.forall₂_map_right_iff, List.forall₂_same]
  intro s hs
  refine ⟨rfl, rfl, requiredTypes_eq s.fields, fun type htype => ?_, exists_lines_of_generate h hs⟩
  rw [emitStruct, requiredTypes_eq] at htype
  obtain ⟨hfields, hprimitive⟩ := List.mem_filter.mp htype
  obtain ⟨f, hf, rfl⟩ := List.mem_map.mp hfields
  exact exists_soleOwner_of_field h hs hf ((not_mem_names_iff _).mp (by simpa using hprimitive))

/-- A struct that refers to itself, to an enum twice and to a struct that comes later. -/
def Schema.linked : Schema where
  enums := [⟨"node_kind", some "uint8", [⟨"leaf", none⟩]⟩]
  structs := [
    ⟨"tree_node", [⟨"node_kind", "node_kind", none⟩, ⟨"next", "tree_node", some 2⟩,
      ⟨"old_kind", "node_kind", none⟩, ⟨"node_value", "load", none⟩, ⟨"id", "char", some 16⟩]⟩,
    ⟨"load", [⟨"raw", "float", none⟩]⟩]

/-- What the structs require, and their headers. -/
def Schema.linkedHeaders : List (List String × String) := [
    (["node_kind", "tree_node", "node_kind", "load"], Cpp.frame "TreeNode"
      ("struct TreeNode\n\x7b\n\tNodeKind nodeKind;\n\tTreeNode next[2];\n" ++
        "\tNodeKind oldKind;\n\tLoad nodeValue;\n\tint8_t id[16];\n\x7d;\n")),
    ([], Cpp.frame "Load" "struct Load\n\x7b\n\tfloat_t raw;\n\x7d;\n")]

theorem structHeaders_of_generate_linked :
    ∃ generated, generate .cpp .linked = .ok generated ∧
      generated.structs.map (fun unit => (unit.requiredTypes, unit.code)) = Schema.linkedHeaders ∧
      List.Forall₂ (StructHeader generated.units) Schema.linked.structs generated.structs := by
  have hheaders : (generate .cpp .linked).map
      (·.structs.map fun unit => (unit.requiredTypes, unit.code)) = .ok Schema.linkedHeaders := by
    decide +kernel
  cases h : generate .cpp .linked with
  | error failure =>
    rw [h] at hheaders
    cases hheaders
  | ok generated =>
    rw [h] at hheaders
    exact ⟨generated, rfl, Except.ok.inj hheaders, structHeaders_of_generate h⟩

end SchemaHeaders
