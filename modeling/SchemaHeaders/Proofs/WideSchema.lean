import SchemaHeaders.Proofs.Datum
import Mathlib.Algebra.Group.Int.Defs
import Mathlib.Data.Set.List

/-!
# Schemas of arbitrary integers

A document can hold any integer where a schema has room for 64 bits or for 32. A `WideSchema` is a
schema before that matters, and `Schema.wide` takes a schema for one. All of its integers are in
range exactly if it is the wide form of a schema (`WideSchema.exists_wide_iff`).

The data of a wide schema are those of the schema, where there is one (`Schema.datum_wide`), and
whatever the dialect, a document that holds them is read as a schema exactly if they come from that
schema (`readSchema_eq_ok_iff`) : an integer out of range is refused by the reader of its field.
-/

namespace SchemaHeaders

open Document (Node valuesOf readOptional readList readValue readLength readMember readEnum
  readField readStruct readSchema readRecord Layout ListForm)

/-! ## Wide schemas -/

/-- A member of an enum whose value can be any integer. -/
structure WideMember where
  name : String
  value : Option Int
  deriving DecidableEq

/-- An enum of such members. -/
structure WideEnum where
  name : String
  underlying : Option String
  members : List WideMember
  deriving DecidableEq

/-- A field of a struct whose length can be any integer. -/
structure WideField where
  name : String
  typeName : String
  length : Option Int
  deriving DecidableEq

/-- A struct of such fields. -/
structure WideStruct where
  name : String
  fields : List WideField
  deriving DecidableEq

/-- A schema whose values and lengths can be any integers. -/
structure WideSchema where
  enums : List WideEnum
  structs : List WideStruct
  deriving DecidableEq

/-- A member with its value as an integer. -/
def EnumMember.wide (m : EnumMember) : WideMember := ⟨m.name, m.value.map Int64.toInt⟩

/-- An enum with the values of its members as integers. -/
def EnumEntry.wide (e : EnumEntry) : WideEnum :=
  ⟨e.name, e.underlying, e.members.map EnumMember.wide⟩

/-- A field with its length as an integer. -/
def Field.wide (f : Field) : WideField := ⟨f.name, f.typeName, f.length.map fun n => n.toNat⟩

/-- A struct with the lengths of its fields as integers. -/
def StructEntry.wide (s : StructEntry) : WideStruct := ⟨s.name, s.fields.map Field.wide⟩

/-- A schema with its values and lengths as integers. -/
def Schema.wide (schema : Schema) : WideSchema :=
  ⟨schema.enums.map EnumEntry.wide, schema.structs.map StructEntry.wide⟩

namespace WideSchema

/-- The declared names, enums before structs. -/
def declaredNames (w : WideSchema) : List String := w.enums.map (·.name) ++ w.structs.map (·.name)

/-- The texts of a wide schema. -/
def texts (w : WideSchema) : List String :=
  w.enums.flatMap (fun e => e.name :: (e.underlying.toList ++ e.members.map (·.name))) ++
    w.structs.flatMap fun s => s.name :: s.fields.flatMap fun f => [f.name, f.typeName]

/-- The integers of a wide schema. -/
def integers (w : WideSchema) : List Int :=
  w.enums.flatMap (fun e => e.members.flatMap (·.value.toList)) ++
    w.structs.flatMap fun s => s.fields.flatMap (·.length.toList)

end WideSchema

theorem Schema.declaredNames_wide (schema : Schema) :
    schema.wide.declaredNames = schema.declaredNames := by
  simp only [WideSchema.declaredNames, declaredNames, wide, List.map_map]
  rfl

theorem Schema.texts_wide (schema : Schema) : schema.wide.texts = schema.texts := by
  simp only [WideSchema.texts, texts, wide, EnumEntry.wide, StructEntry.wide, List.flatMap_map,
    List.map_map]
  rfl

/-! ## Ranges -/

/-- The value of a member is one of 64 bits with a sign. -/
def WideMember.InRange (m : WideMember) : Prop :=
  ∀ z, m.value = some z → -2 ^ 63 ≤ z ∧ z ≤ 2 ^ 63 - 1

/-- The length of a field is one of 32 bits without a sign. -/
def WideField.InRange (f : WideField) : Prop :=
  ∀ z, f.length = some z → 0 ≤ z ∧ z ≤ 2 ^ 32 - 1

/-- Every value and every length is in its range. -/
structure WideSchema.InRange (w : WideSchema) : Prop where
  values : ∀ e ∈ w.enums, ∀ m ∈ e.members, m.InRange
  lengths : ∀ s ∈ w.structs, ∀ f ∈ s.fields, f.InRange

/-- Every integer in range is one of 64 bits. -/
theorem WideSchema.InRange.integers {w : WideSchema} (h : w.InRange) :
    ∀ z ∈ w.integers, -2 ^ 63 ≤ z ∧ z ≤ 2 ^ 63 - 1 := by
  simp only [WideSchema.integers, List.mem_append, List.mem_flatMap, Option.mem_toList]
  rintro z (⟨e, he, m, hm, hz⟩ | ⟨s, hs, f, hf, hz⟩)
  · exact h.values e he m hm z hz
  · obtain ⟨hlow, hhigh⟩ := h.lengths s hs f hf z hz
    omega

theorem exists_toInt_iff (z : Int) :
    (∃ v : Int64, v.toInt = z) ↔ -2 ^ 63 ≤ z ∧ z ≤ 2 ^ 63 - 1 := by
  constructor
  · rintro ⟨v, rfl⟩
    have hlow := v.le_toInt
    have hhigh := v.toInt_lt
    omega
  · rintro ⟨hlow, hhigh⟩
    exact ⟨Int64.ofInt z, Int64.toInt_ofInt_of_le hlow (by omega)⟩

theorem exists_toNat_iff (z : Int) :
    (∃ n : UInt32, (n.toNat : Int) = z) ↔ 0 ≤ z ∧ z ≤ 2 ^ 32 - 1 := by
  constructor
  · rintro ⟨n, rfl⟩
    have hn := n.toNat_lt
    omega
  · rintro ⟨hlow, hhigh⟩
    have hz : z.toNat < UInt32.size := (by omega : z.toNat < 2 ^ 32)
    refine ⟨UInt32.ofNat z.toNat, ?_⟩
    rw [UInt32.toNat_ofNat_of_lt' hz]
    omega

/-- What may be absent comes through a function exactly if it does where it is there. -/
theorem exists_map_eq_iff {α β : Type} (f : α → β) (y : Option β) :
    (∃ x : Option α, x.map f = y) ↔ ∀ b, y = some b → ∃ a, f a = b := by
  cases y with
  | none => simp
  | some b =>
    constructor
    · rintro ⟨x, hx⟩ _ ⟨⟩
      obtain ⟨a, -, ha⟩ := Option.map_eq_some_iff.mp hx
      exact ⟨a, ha⟩
    · intro h
      obtain ⟨a, ha⟩ := h b rfl
      exact ⟨some a, congrArg some ha⟩

/-- A list comes through a function exactly if all in it does. -/
theorem exists_list_map_eq_iff {α β : Type} (f : α → β) (ys : List β) :
    (∃ xs : List α, xs.map f = ys) ↔ ∀ y ∈ ys, ∃ x, f x = y :=
  Set.ext_iff.mp (Set.range_list_map f) ys

theorem WideMember.exists_wide_iff (m : WideMember) :
    (∃ m' : EnumMember, m'.wide = m) ↔ m.InRange := by
  have hvalue := exists_map_eq_iff Int64.toInt m.value
  simp only [exists_toInt_iff] at hvalue
  rw [InRange, ← hvalue]
  constructor
  · rintro ⟨m', rfl⟩
    exact ⟨m'.value, rfl⟩
  · rintro ⟨value, hvalue⟩
    exact ⟨⟨m.name, value⟩, by rw [EnumMember.wide, hvalue]⟩

theorem WideEnum.exists_wide_iff (e : WideEnum) :
    (∃ e' : EnumEntry, e'.wide = e) ↔ ∀ m ∈ e.members, m.InRange := by
  simp only [← WideMember.exists_wide_iff, ← exists_list_map_eq_iff]
  constructor
  · rintro ⟨e', rfl⟩
    exact ⟨e'.members, rfl⟩
  · rintro ⟨members, hmembers⟩
    exact ⟨⟨e.name, e.underlying, members⟩, by rw [EnumEntry.wide, hmembers]⟩

theorem WideField.exists_wide_iff (f : WideField) : (∃ f' : Field, f'.wide = f) ↔ f.InRange := by
  have hlength := exists_map_eq_iff (fun n : UInt32 => (n.toNat : Int)) f.length
  simp only [exists_toNat_iff] at hlength
  rw [InRange, ← hlength]
  constructor
  · rintro ⟨f', rfl⟩
    exact ⟨f'.length, rfl⟩
  · rintro ⟨length, hlength⟩
    exact ⟨⟨f.name, f.typeName, length⟩, by rw [Field.wide, hlength]⟩

theorem WideStruct.exists_wide_iff (s : WideStruct) :
    (∃ s' : StructEntry, s'.wide = s) ↔ ∀ f ∈ s.fields, f.InRange := by
  simp only [← WideField.exists_wide_iff, ← exists_list_map_eq_iff]
  constructor
  · rintro ⟨s', rfl⟩
    exact ⟨s'.fields, rfl⟩
  · rintro ⟨fields, hfields⟩
    exact ⟨⟨s.name, fields⟩, by rw [StructEntry.wide, hfields]⟩

/-- A wide schema is that of a schema exactly if it is in range. -/
theorem WideSchema.exists_wide_iff (w : WideSchema) :
    (∃ schema : Schema, schema.wide = w) ↔ w.InRange := by
  have henums := exists_list_map_eq_iff EnumEntry.wide w.enums
  have hstructs := exists_list_map_eq_iff StructEntry.wide w.structs
  simp only [WideEnum.exists_wide_iff] at henums
  simp only [WideStruct.exists_wide_iff] at hstructs
  constructor
  · rintro ⟨schema, rfl⟩
    exact ⟨henums.mp ⟨_, rfl⟩, hstructs.mp ⟨_, rfl⟩⟩
  · rintro ⟨hvalues, hlengths⟩
    obtain ⟨enums, henums⟩ := henums.mpr hvalues
    obtain ⟨structs, hstructs⟩ := hstructs.mpr hlengths
    exact ⟨⟨enums, structs⟩, by rw [Schema.wide, henums, hstructs]⟩

/-! ## Data -/

/-- A member as plain data. -/
def WideMember.datum (m : WideMember) : Datum :=
  .table (("name", .text m.name) :: optionalEntry "value" m.value .integer)

/-- An enum as plain data. -/
def WideEnum.datum (e : WideEnum) : Datum :=
  .table (("name", .text e.name) :: (optionalEntry "type" e.underlying .text ++
    [("values", .list (e.members.map WideMember.datum))]))

/-- A field as plain data. -/
def WideField.datum (f : WideField) : Datum :=
  .table (("name", .text f.name) :: ("type", .text f.typeName) ::
    optionalEntry "length" f.length .integer)

/-- A struct as plain data. -/
def WideStruct.datum (s : WideStruct) : Datum :=
  .table [("name", .text s.name), ("fields", .list (s.fields.map WideField.datum))]

/-- The list of the enums, and that of the structs, as plain data. -/
def WideSchema.lists (w : WideSchema) : Datum × Datum :=
  (.list (w.enums.map WideEnum.datum), .list (w.structs.map WideStruct.datum))

/-- A wide schema as plain data. -/
def WideSchema.datum (w : WideSchema) : Datum :=
  .table [("enum", w.lists.1), ("struct", w.lists.2)]

theorem EnumMember.datum_wide (m : EnumMember) : m.wide.datum = m.datum := by
  cases hvalue : m.value <;> simp [WideMember.datum, datum, wide, optionalEntry, hvalue]

theorem EnumEntry.datum_wide (e : EnumEntry) : e.wide.datum = e.datum := by
  simp [WideEnum.datum, datum, wide, Function.comp_def, EnumMember.datum_wide]

theorem Field.datum_wide (f : Field) : f.wide.datum = f.datum := by
  cases hlength : f.length <;> simp [WideField.datum, datum, wide, optionalEntry, hlength]

theorem StructEntry.datum_wide (s : StructEntry) : s.wide.datum = s.datum := by
  simp [WideStruct.datum, datum, wide, Function.comp_def, Field.datum_wide]

/-- The data of a schema are those of its wide form. -/
theorem Schema.datum_wide (schema : Schema) : schema.wide.datum = schema.datum := by
  simp [WideSchema.datum, WideSchema.lists, datum, entries, wide, Function.comp_def,
    EnumEntry.datum_wide, StructEntry.datum_wide]

section Fits

variable {kind : Int → Prop} {n : Nat}

theorem WideMember.fits_datum {m : WideMember} (hname : ∀ c ∈ m.name.toList, IsPlain c)
    (hvalue : ∀ z, m.value = some z → kind z) : m.datum.Fits kind (n + 1) := by
  refine .table ?_ ?_ ?_
  · simp only [List.forall_mem_cons, mem_optionalEntry]
    refine ⟨by decide, ?_⟩
    rintro _ ⟨z, -, rfl⟩
    exact (by decide : IsKey "value")
  · simp only [List.forall_mem_cons, mem_optionalEntry]
    refine ⟨.text hname, ?_⟩
    rintro _ ⟨z, hz, rfl⟩
    exact .integer (hvalue z hz)
  · cases m.value <;> simp [optionalEntry]

theorem WideEnum.fits_datum {e : WideEnum} (hname : ∀ c ∈ e.name.toList, IsPlain c)
    (hunderlying : ∀ s, e.underlying = some s → ∀ c ∈ s.toList, IsPlain c)
    (hmembers : ∀ m ∈ e.members, (∀ c ∈ m.name.toList, IsPlain c) ∧
      ∀ z, m.value = some z → kind z) : e.datum.Fits kind (n + 3) := by
  refine .table ?_ ?_ ?_
  · simp only [List.forall_mem_cons, List.forall_mem_append, mem_optionalEntry]
    refine ⟨by decide, ?_, by decide, by simp⟩
    rintro _ ⟨s, -, rfl⟩
    exact (by decide : IsKey "type")
  · simp only [List.forall_mem_cons, List.forall_mem_append, mem_optionalEntry]
    refine ⟨.text hname, ?_, .list fun d hd => ?_, by simp⟩
    · rintro _ ⟨s, hs, rfl⟩
      exact .text (hunderlying s hs)
    · obtain ⟨m, hm, rfl⟩ := List.mem_map.mp hd
      exact WideMember.fits_datum (hmembers m hm).1 (hmembers m hm).2
  · cases e.underlying <;> simp [optionalEntry]

theorem WideField.fits_datum {f : WideField} (hname : ∀ c ∈ f.name.toList, IsPlain c)
    (htypeName : ∀ c ∈ f.typeName.toList, IsPlain c) (hlength : ∀ z, f.length = some z → kind z) :
    f.datum.Fits kind (n + 1) := by
  refine .table ?_ ?_ ?_
  · simp only [List.forall_mem_cons, mem_optionalEntry]
    refine ⟨by decide, by decide, ?_⟩
    rintro _ ⟨z, -, rfl⟩
    exact (by decide : IsKey "length")
  · simp only [List.forall_mem_cons, mem_optionalEntry]
    refine ⟨.text hname, .text htypeName, ?_⟩
    rintro _ ⟨z, hz, rfl⟩
    exact .integer (hlength z hz)
  · cases f.length <;> simp [optionalEntry]

theorem WideStruct.fits_datum {s : WideStruct} (hname : ∀ c ∈ s.name.toList, IsPlain c)
    (hfields : ∀ f ∈ s.fields, (∀ c ∈ f.name.toList, IsPlain c) ∧
      (∀ c ∈ f.typeName.toList, IsPlain c) ∧ ∀ z, f.length = some z → kind z) :
    s.datum.Fits kind (n + 3) := by
  refine .table ?_ ?_ (by simp)
  · simp only [List.forall_mem_cons]
    exact ⟨by decide, by decide, by simp⟩
  · simp only [List.forall_mem_cons]
    refine ⟨.text hname, .list fun d hd => ?_, by simp⟩
    obtain ⟨f, hf, rfl⟩ := List.mem_map.mp hd
    exact WideField.fits_datum (hfields f hf).1 (hfields f hf).2.1 (hfields f hf).2.2

/-- The two lists of a wide schema of plain texts are at most four lists and tables deep. -/
theorem WideSchema.fits_lists {w : WideSchema} (htexts : ∀ s ∈ w.texts, ∀ c ∈ s.toList, IsPlain c)
    (hintegers : ∀ z ∈ w.integers, kind z) : w.lists.1.Fits kind 4 ∧ w.lists.2.Fits kind 4 := by
  simp only [texts, List.mem_append, List.mem_flatMap, List.mem_cons, List.mem_map,
    Option.mem_toList] at htexts
  simp only [integers, List.mem_append, List.mem_flatMap, Option.mem_toList] at hintegers
  refine ⟨.list fun d hd => ?_, .list fun d hd => ?_⟩
  · obtain ⟨e, he, rfl⟩ := List.mem_map.mp hd
    exact WideEnum.fits_datum (htexts _ (Or.inl ⟨e, he, Or.inl rfl⟩))
      (fun s hs => htexts _ (Or.inl ⟨e, he, Or.inr (Or.inl hs)⟩))
      fun m hm => ⟨htexts _ (Or.inl ⟨e, he, Or.inr (Or.inr ⟨m, hm, rfl⟩)⟩),
        fun z hz => hintegers z (Or.inl ⟨e, he, m, hm, hz⟩)⟩
  · obtain ⟨s, hs, rfl⟩ := List.mem_map.mp hd
    exact WideStruct.fits_datum (htexts _ (Or.inr ⟨s, hs, Or.inl rfl⟩)) fun f hf =>
      ⟨htexts _ (Or.inr ⟨s, hs, Or.inr ⟨f, hf, by simp⟩⟩),
        htexts _ (Or.inr ⟨s, hs, Or.inr ⟨f, hf, by simp⟩⟩),
        fun z hz => hintegers z (Or.inr ⟨s, hs, f, hf, hz⟩)⟩

/-- The lists of a wide schema of plain texts fit, whatever its integers. -/
theorem WideSchema.fits_lists_any (w : WideSchema) (h : ∀ s ∈ w.texts, ∀ c ∈ s.toList, IsPlain c) :
    w.lists.1.Fits (fun _ => True) 4 ∧ w.lists.2.Fits (fun _ => True) 4 :=
  fits_lists h fun _ _ => trivial

/-- The data of a wide schema are one table deeper than its lists. -/
theorem WideSchema.fits_datum {w : WideSchema} (h : w.lists.1.Fits kind n ∧ w.lists.2.Fits kind n) :
    w.datum.Fits kind (n + 1) := by
  refine .table ?_ ?_ (by simp)
  · simp only [List.forall_mem_cons]
    exact ⟨by decide, by decide, by simp⟩
  · simp only [List.forall_mem_cons]
    exact ⟨h.1, h.2, by simp⟩

end Fits

/-! ## Reading -/

section Reading

variable {dialect : Dialect} {doc : Document} {form : ListForm}

/-- What is read where it may be absent is read. -/
theorem exists_of_readOptional_node {α : Type} {read : Node → Except Complaint α} {z : Int}
    {given : Option α} (h : readOptional doc read ((Datum.integer z).node dialect) = .ok given) :
    ∃ x, read ((Datum.integer z).node dialect) = .ok x := by
  obtain ⟨habsent, hoptional⟩ := dialect.integer_present z
  simp only [readOptional, Document.resolve, Datum.node, Datum.fold, Dialect.shape, habsent,
    hoptional] at h ⊢
  cases hread : read (.scalar (dialect.integer z)) with
  | error complaint => simp [hread] at h
  | ok x => exact ⟨x, rfl⟩

/-- An integer that is read as a value has the range of values. -/
theorem range_of_readValue {z : Int} {value : Int64}
    (h : readValue doc ((Datum.integer z).node dialect) = .ok value) :
    -2 ^ 63 ≤ z ∧ z ≤ 2 ^ 63 - 1 := by
  simp only [readValue, Document.readInteger, Document.resolve, Datum.node, Datum.fold,
    Dialect.shape, dialect.integer_integer] at h
  by_cases hrange : Int64.minValue.toInt ≤ z ∧ z ≤ Int64.maxValue.toInt
  · exact hrange
  · rw [if_neg hrange] at h
    cases h

/-- An integer that is read as a length has the range of lengths. -/
theorem range_of_readLength {z : Int} {length : UInt32}
    (h : readLength doc ((Datum.integer z).node dialect) = .ok length) :
    0 ≤ z ∧ z ≤ 2 ^ 32 - 1 := by
  simp only [readLength, Document.readNatural, Document.resolve, Datum.node, Datum.fold,
    Dialect.shape, dialect.integer_natural] at h
  by_cases hz : 0 ≤ z
  · by_cases hbound : z.toNat ≤ UInt32.size - 1
    · have hsize : UInt32.size = 2 ^ 32 := rfl
      omega
    · simp only [hz, hbound, if_true, if_false] at h
      cases h
  · simp only [hz, if_false] at h
    cases h

/-- Where a record is read from a table, so is the value of each key that fills a place. -/
theorem exists_of_readRecord_node {δ α β : Type} {layout : Layout δ α}
    {entries : List (String × Datum)} {record : α}
    (h : readRecord doc form layout ((Datum.table entries).node dialect) = .ok record) {key : String}
    {d : Datum} (hmem : (key, d) ∈ entries) {value : Except Complaint β}
    (hput : ∀ draft, ∃ name place store,
      layout.put key (d.node dialect) draft = some (Document.fill name place value store)) :
    ∃ x, value = .ok x := by
  obtain ⟨named, hholds, hvalues⟩ := @holds_node dialect doc entries
  have hd : d.node dialect ∈ (valuesOf key entries).map (Datum.node dialect) :=
    List.mem_map_of_mem (Document.mem_valuesOf.mpr hmem)
  have hnamed := Document.mem_valuesOf.mp ((hvalues key).mem_iff.mpr hd)
  obtain ⟨before, hstep⟩ := Document.put_of_readRecord hholds h hnamed
  obtain ⟨name, place, store, hfill⟩ := hput before
  obtain ⟨after, hafter⟩ := hstep _ hfill
  exact Document.exists_of_fill hafter

/-- Where a list is read, so is each of its items. -/
theorem exists_of_readList_node {α β : Type} {read : Node → Except Complaint α} {datum : β → Datum}
    {ys : List β} {xs : List α}
    (h : readList doc read ((Datum.list (ys.map datum)).node dialect) = .ok xs) :
    ∀ y ∈ ys, ∃ x, read ((datum y).node dialect) = .ok x := by
  rw [Datum.node, Datum.fold_list] at h
  intro y hy
  exact Document.exists_of_readList rfl h _ (List.mem_map_of_mem (List.mem_map_of_mem hy))

theorem WideMember.inRange_of_read {m : WideMember} {m' : EnumMember}
    (h : readMember doc form (m.datum.node dialect) = .ok m') : m.InRange := by
  intro z hz
  have hmem : ("value", Datum.integer z) ∈ optionalEntry "value" m.value Datum.integer :=
    mem_optionalEntry.mpr ⟨z, hz, rfl⟩
  obtain ⟨given, hgiven⟩ := exists_of_readRecord_node h (List.mem_cons_of_mem _ hmem)
    fun _ => ⟨_, _, _, rfl⟩
  obtain ⟨value, hvalue⟩ := exists_of_readOptional_node hgiven
  exact range_of_readValue hvalue

theorem WideEnum.inRange_of_read {e : WideEnum} {e' : EnumEntry}
    (h : readEnum doc form (e.datum.node dialect) = .ok e') : ∀ m ∈ e.members, m.InRange := by
  obtain ⟨members, hmembers⟩ := exists_of_readRecord_node h
    (List.mem_cons_of_mem _ (List.mem_append_right _ (List.mem_singleton_self _)))
    fun _ => ⟨_, _, _, rfl⟩
  intro m hm
  obtain ⟨m', hm'⟩ := exists_of_readList_node hmembers m hm
  exact WideMember.inRange_of_read hm'

theorem WideField.inRange_of_read {f : WideField} {f' : Field}
    (h : readField doc form (f.datum.node dialect) = .ok f') : f.InRange := by
  intro z hz
  have hmem : ("length", Datum.integer z) ∈ optionalEntry "length" f.length Datum.integer :=
    mem_optionalEntry.mpr ⟨z, hz, rfl⟩
  obtain ⟨given, hgiven⟩ := exists_of_readRecord_node h
    (List.mem_cons_of_mem _ (List.mem_cons_of_mem _ hmem)) fun _ => ⟨_, _, _, rfl⟩
  obtain ⟨length, hlength⟩ := exists_of_readOptional_node hgiven
  exact range_of_readLength hlength

theorem WideStruct.inRange_of_read {s : WideStruct} {s' : StructEntry}
    (h : readStruct doc form (s.datum.node dialect) = .ok s') : ∀ f ∈ s.fields, f.InRange := by
  obtain ⟨fields, hfields⟩ := exists_of_readRecord_node h
    (List.mem_cons_of_mem _ (List.mem_singleton_self _)) fun _ => ⟨_, _, _, rfl⟩
  intro f hf
  obtain ⟨f', hf'⟩ := exists_of_readList_node hfields f hf
  exact WideField.inRange_of_read hf'

/-- A wide schema that is read is in range. -/
theorem WideSchema.inRange_of_read {w : WideSchema} {schema : Schema}
    (hroot : w.datum.node dialect = doc.root) (h : readSchema doc form = .ok schema) :
    w.InRange := by
  rw [readSchema, ← hroot] at h
  cases hread : readRecord doc form (Document.schemaLayout doc form) (w.datum.node dialect) with
  | error complaint =>
    rw [hread] at h
    cases h
  | ok read =>
    constructor
    · obtain ⟨enums, henums⟩ := exists_of_readRecord_node hread (List.mem_cons_self ..)
        fun _ => ⟨_, _, _, rfl⟩
      intro e he
      obtain ⟨e', he'⟩ := exists_of_readList_node henums e he
      exact WideEnum.inRange_of_read he'
    · obtain ⟨structs, hstructs⟩ := exists_of_readRecord_node hread
        (List.mem_cons_of_mem _ (List.mem_singleton_self _)) fun _ => ⟨_, _, _, rfl⟩
      intro s hs
      obtain ⟨s', hs'⟩ := exists_of_readList_node hstructs s hs
      exact WideStruct.inRange_of_read hs'

/-- A document that holds the data of a wide schema is read as a schema exactly if that is the one
of these integers. -/
theorem readSchema_eq_ok_iff {w : WideSchema} {schema : Schema}
    (hroot : w.datum.node dialect = doc.root) (hended : doc.ended = true) :
    readSchema doc form = .ok schema ↔ schema.wide = w := by
  constructor
  · intro h
    obtain ⟨narrow, rfl⟩ := w.exists_wide_iff.mpr (WideSchema.inRange_of_read hroot h)
    rw [narrow.datum_wide] at hroot
    rw [Except.ok.inj (h.symm.trans (readSchema_of_datum narrow hroot hended))]
  · rintro rfl
    rw [schema.datum_wide] at hroot
    exact readSchema_of_datum schema hroot hended

end Reading

end SchemaHeaders
