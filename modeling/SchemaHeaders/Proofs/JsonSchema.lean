import SchemaHeaders.Format
import SchemaHeaders.Proofs.JsonText

/-!
# Schemas in JSON

`Renders schema text` says that a JSON text is a rendering of a schema: records are objects whose
members come in any order, with members of other keys among them that hold any value; what a
record lacks is left out or `null`, and a list without parts may be left out.

Every rendering of a schema is read as that schema (`parse_of_renders`).
-/

namespace SchemaHeaders.Json

open Document (Node valuesOf Gives Holds Named readText readInteger readNatural readOptional readList
  readValue readLength readMember readEnum readField readStruct ListForm)

/-! ## Renderings -/

section Renderings

variable {α : Type}

/-- A string that says a text. -/
def IsString (text : String) (value : Value) : Prop :=
  ∃ spelling, value = .text spelling ∧ Says text.toList spelling

/-- The decimal digits of an integer, after a minus sign if it is negative. -/
def IsInteger (z : Int) (value : Value) : Prop := value = .number (Text.signed z)

/-- The values of a key that stands once. -/
inductive Once (is : α → Value → Prop) (x : α) : List Value → Prop
  | given {value : Value} : is x value → Once is x [value]

/-- The values of a key that may be left out. -/
inductive Maybe (is : α → Value → Prop) : Option α → List Value → Prop
  | omitted : Maybe is none []
  | null : Maybe is none [.null]
  | given {x : α} {value : Value} : is x value → Maybe is (some x) [value]

/-- The values of a key that holds a list, which may be left out if it is empty. -/
inductive Several (is : α → Value → Prop) : List α → List Value → Prop
  | omitted : Several is [] []
  | given {xs : List α} {values : List Value} : List.Forall₂ is xs values →
      Several is xs [.array values]

/-- Members with the texts that their keys say. -/
def Keyed : List (List Char × Value) → List (String × Value) → Prop :=
  List.Forall₂ fun member named => Says named.1.toList member.1 ∧ member.2 = named.2

/-- An object, by the values of its keys. -/
def IsObject (fields : (String → List Value) → Prop) (value : Value) : Prop :=
  ∃ members named, value = .object members ∧ Keyed members named ∧
    fields fun key => valuesOf key named

/-- An object that is a member of an enum. -/
def IsMember (m : EnumMember) : Value → Prop :=
  IsObject fun values => Once IsString m.name (values "name") ∧
    Maybe (fun z : Int64 => IsInteger z.toInt) m.value (values "value")

/-- An object that is an enum. -/
def IsEnum (e : EnumEntry) : Value → Prop :=
  IsObject fun values => Once IsString e.name (values "name") ∧
    Maybe IsString e.underlying (values "type") ∧ Several IsMember e.members (values "values")

/-- An object that is a field of a struct. -/
def IsField (f : Field) : Value → Prop :=
  IsObject fun values => Once IsString f.name (values "name") ∧
    Once IsString f.typeName (values "type") ∧
    Maybe (fun n : UInt32 => IsInteger n.toNat) f.length (values "length")

/-- An object that is a struct. -/
def IsStruct (s : StructEntry) : Value → Prop :=
  IsObject fun values => Once IsString s.name (values "name") ∧
    Several IsField s.fields (values "fields")

/-- An object that is a schema. -/
def IsSchema (schema : Schema) : Value → Prop :=
  IsObject fun values => Several IsEnum schema.enums (values "enum") ∧
    Several IsStruct schema.structs (values "struct")

/-- A text that is a JSON rendering of a schema. -/
def Renders (schema : Schema) (text : String) : Prop :=
  ∃ value, IsSchema schema value ∧ Element value text.toList

end Renderings

/-! ## Reading -/

section Reading

variable {α : Type} {doc : Document} {form : ListForm} {value : Value} {values : List Value}

theorem IsString.nodeOf_eq {text : String} (h : IsString text value) :
    nodeOf value = Node.ofText text := by
  obtain ⟨spelling, rfl, hspelling⟩ := h
  rw [nodeOf, contentOf_of_spelling hspelling, String.ofList_toList, Node.ofText]

theorem IsInteger.nodeOf_eq {z : Int} (h : IsInteger z value) : nodeOf value = Node.ofInt z := by
  rw [h, nodeOf, integerOf_signed]
  rfl

theorem readText_of_isString (doc : Document) {text : String} (h : IsString text value) :
    readText doc (nodeOf value) = .ok text := by
  rw [h.nodeOf_eq]
  rfl

theorem readValue_of_isInteger (doc : Document) {z : Int64} (h : IsInteger z.toInt value) :
    readValue doc (nodeOf value) = .ok z := by
  rw [h.nodeOf_eq, readValue, readInteger]
  simp only [Document.resolve, Node.ofInt]
  rw [if_pos ⟨Int64.minValue_le_toInt z, z.toInt_le⟩]
  simp

theorem readLength_of_isInteger (doc : Document) {n : UInt32} (h : IsInteger n.toNat value) :
    readLength doc (nodeOf value) = .ok n := by
  have hn := n.toNat_lt_size
  rw [h.nodeOf_eq, readLength, readNatural]
  simp only [Document.resolve, Node.ofInt]
  rw [if_pos (by omega)]
  simp only [Int.toNat_natCast]
  rw [if_pos (by omega)]
  simp

/-- What is not absent is read as what an optional value may be. -/
theorem readOptional_some {read : Node → Except Complaint α} {scalar : Document.Scalar} {x : α}
    (habsent : scalar.absent = false) (hoptional : scalar.optional = true)
    (h : read (.scalar scalar) = .ok x) : readOptional doc read (.scalar scalar) = .ok (some x) := by
  simp [readOptional, Document.resolve, habsent, hoptional, h]

theorem gives_once {is : α → Value → Prop} {read : Node → Except Complaint α} {x : α}
    (h : Once is x values) (hread : ∀ value, is x value → read (nodeOf value) = .ok x) :
    Gives read (values.map nodeOf) (some x) := by
  cases h with
  | given hvalue => exact .one (hread _ hvalue)

theorem gives_maybe {is : α → Value → Prop} {read : Node → Except Complaint α} {x : Option α}
    (h : Maybe is x values)
    (hread : ∀ x value, is x value → readOptional doc read (nodeOf value) = .ok (some x)) :
    ∃ given, Gives (readOptional doc read) (values.map nodeOf) given ∧ given.getD none = x := by
  cases h with
  | omitted => exact ⟨_, .nothing, rfl⟩
  | null => exact ⟨_, .one rfl, rfl⟩
  | given hvalue => exact ⟨_, .one (hread _ _ hvalue), rfl⟩

theorem gives_several {is : α → Value → Prop} {read : Node → Except Complaint α} {xs : List α}
    (h : Several is xs values) (hread : ∀ x value, is x value → read (nodeOf value) = .ok x) :
    ∃ given, Gives (readList doc read) (values.map nodeOf) given ∧ given.getD [] = xs := by
  cases h with
  | omitted => exact ⟨_, .nothing, rfl⟩
  | given hvalues =>
    refine ⟨_, .one (Document.readList_ok rfl ?_), rfl⟩
    rw [nodesOf_eq_map, List.forall₂_map_left_iff]
    exact hvalues.flip.imp fun value x => hread x value

theorem valuesOf_nodes (key : String) (named : List (String × Value)) :
    valuesOf key (named.map fun entry => (entry.1, nodeOf entry.2)) =
      (valuesOf key named).map nodeOf := by
  simp [valuesOf, List.filter_map, Function.comp_def]

/-- An object holds the nodes of its values by the texts of its keys. -/
theorem holds_of_keyed (doc : Document) {members : List (List Char × Value)}
    {named : List (String × Value)} (h : Keyed members named) :
    Holds doc (nodeOf (.object members)) (named.map fun entry => (entry.1, nodeOf entry.2)) where
  table := by
    refine ⟨_, rfl, ?_⟩
    rw [entriesOf_eq_map, Named, List.forall₂_map_left_iff, List.forall₂_map_right_iff]
    refine h.imp fun member entry hentry => ⟨?_, congrArg nodeOf hentry.2⟩
    rw [contentOf_of_spelling hentry.1, String.ofList_toList]
    rfl
  whole := by
    intro entry hentry
    obtain ⟨entry, -, rfl⟩ := List.mem_map.mp hentry
    exact whole_nodeOf entry.2

/-- An object is read from the nodes of the values of its keys. -/
theorem IsObject.holds (doc : Document) {fields : (String → List Value) → Prop}
    (h : IsObject fields value) : ∃ named values, Holds doc (nodeOf value) named ∧ fields values ∧
      ∀ key, valuesOf key named = (values key).map nodeOf := by
  obtain ⟨members, named, rfl, hkeyed, hfields⟩ := h
  exact ⟨_, _, holds_of_keyed doc hkeyed, hfields, fun key => valuesOf_nodes key named⟩

theorem readOptional_of_isString (doc : Document) {text : String} (h : IsString text value) :
    readOptional doc (readText doc) (nodeOf value) = .ok (some text) := by
  have hread := readText_of_isString doc h
  rw [h.nodeOf_eq] at hread ⊢
  exact readOptional_some rfl rfl hread

theorem readOptional_of_isInteger (doc : Document) {read : Node → Except Complaint α} {z : Int}
    {x : α} (h : IsInteger z value) (hread : read (nodeOf value) = .ok x) :
    readOptional doc read (nodeOf value) = .ok (some x) := by
  rw [h.nodeOf_eq] at hread ⊢
  exact readOptional_some rfl rfl hread

theorem readMember_of_isMember (doc : Document) {m : EnumMember} (h : IsMember m value) :
    readMember doc form (nodeOf value) = .ok m := by
  obtain ⟨named, values, hholds, ⟨hname, hvalue⟩, hvalues⟩ := h.holds doc
  have hname := gives_once hname fun _ => readText_of_isString doc
  obtain ⟨given, hvalue, hgiven⟩ := gives_maybe hvalue fun _ _ hz =>
    readOptional_of_isInteger doc hz (readValue_of_isInteger doc hz)
  rw [← hvalues] at hname hvalue
  rw [Document.readMember_ok hholds hname hvalue, hgiven]

theorem readEnum_of_isEnum (doc : Document) {e : EnumEntry} (h : IsEnum e value) :
    readEnum doc form (nodeOf value) = .ok e := by
  obtain ⟨named, values, hholds, ⟨hname, hunderlying, hmembers⟩, hvalues⟩ := h.holds doc
  have hname := gives_once hname fun _ => readText_of_isString doc
  obtain ⟨underlying, hunderlying, hgiven⟩ := gives_maybe hunderlying fun _ _ =>
    readOptional_of_isString doc
  obtain ⟨members, hmembers, hgiven'⟩ := @gives_several _ doc _ _ _ _ hmembers fun _ _ =>
    @readMember_of_isMember form _ doc _
  rw [← hvalues] at hname hunderlying hmembers
  rw [Document.readEnum_ok hholds hname hunderlying hmembers, hgiven, hgiven']

theorem readField_of_isField (doc : Document) {f : Field} (h : IsField f value) :
    readField doc form (nodeOf value) = .ok f := by
  obtain ⟨named, values, hholds, ⟨hname, htypeName, hlength⟩, hvalues⟩ := h.holds doc
  have hname := gives_once hname fun _ => readText_of_isString doc
  have htypeName := gives_once htypeName fun _ => readText_of_isString doc
  obtain ⟨length, hlength, hgiven⟩ := gives_maybe hlength fun _ _ hn =>
    readOptional_of_isInteger doc hn (readLength_of_isInteger doc hn)
  rw [← hvalues] at hname htypeName hlength
  rw [Document.readField_ok hholds hname htypeName hlength, hgiven]

theorem readStruct_of_isStruct (doc : Document) {s : StructEntry} (h : IsStruct s value) :
    readStruct doc form (nodeOf value) = .ok s := by
  obtain ⟨named, values, hholds, ⟨hname, hfields⟩, hvalues⟩ := h.holds doc
  have hname := gives_once hname fun _ => readText_of_isString doc
  obtain ⟨fields, hfields, hgiven⟩ := @gives_several _ doc _ _ _ _ hfields fun _ _ =>
    @readField_of_isField form _ doc _
  rw [← hvalues] at hname hfields
  rw [Document.readStruct_ok hholds hname hfields, hgiven]

/-- A document whose root is an object that is a schema is read as that schema. -/
theorem readSchema_of_isSchema (doc : Document) (hroot : nodeOf value = doc.root)
    (hended : doc.ended = true) {schema : Schema} (h : IsSchema schema value) :
    Document.readSchema doc form = .ok schema := by
  obtain ⟨named, values, hholds, ⟨henums, hstructs⟩, hvalues⟩ := h.holds doc
  obtain ⟨enums, henums, hgiven⟩ := @gives_several _ doc _ _ _ _ henums fun _ _ =>
    @readEnum_of_isEnum form _ doc _
  obtain ⟨structs, hstructs, hgiven'⟩ := @gives_several _ doc _ _ _ _ hstructs fun _ _ =>
    @readStruct_of_isStruct form _ doc _
  rw [← hvalues] at henums hstructs
  rw [Document.readSchema_ok hholds hroot hended henums hstructs, hgiven, hgiven']

end Reading

/-- A rendering of a schema is read as the schema. -/
theorem schemaOf_of_renders {schema : Schema} {text : String} (h : Renders schema text) :
    schemaOf text = .ok schema := by
  obtain ⟨value, hvalue, htext⟩ := h
  rw [schemaOf, ofTokens_of_element htext]
  exact readSchema_of_isSchema _ rfl rfl hvalue

/-- Every rendering of a schema is parsed as the schema. -/
theorem parse_of_renders (source : String) {schema : Schema} {text : String}
    (h : Renders schema text) : Format.json.parse source text = .ok schema := by
  rw [Format.parse, Format.read, schemaOf_of_renders h]
  rfl

/-- A struct, its name after its fields, among entries that stand for nothing. -/
def loneData : Datum :=
  .table [("x", .list [.table []]), ("enum", .list []),
    ("struct", .list [.table [("fields", .list []), ("name", .text "A")]]), ("y", .integer (-1))]

theorem isObject_table {fields : (String → List Value) → Prop} {entries : List (String × Datum)}
    (hkeys : ∀ entry ∈ entries, IsKey entry.1)
    (h : fields fun key => (valuesOf key entries).map (Datum.fold valueShape)) :
    IsObject fields ((Datum.table entries).fold valueShape) := by
  refine ⟨_, entries.map fun entry => (entry.1, entry.2.fold valueShape),
    Datum.fold_table .., ?_, ?_⟩
  · rw [Keyed, List.forall₂_map_left_iff, List.forall₂_map_left_iff, List.forall₂_map_right_iff]
    refine List.forall₂_same.mpr fun entry hentry => ⟨?_, rfl⟩
    exact says_escape fun c hc => .of_isLower ((hkeys entry hentry).2.2 c hc)
  · have hvalues : (fun key => valuesOf key (entries.map fun entry =>
        (entry.1, entry.2.fold valueShape))) =
          fun key => (valuesOf key entries).map (Datum.fold valueShape) := by
      funext key
      simp [valuesOf, List.filter_map, Function.comp_def]
    rwa [hvalues]

theorem renders_loneData : Renders ⟨[], [⟨"A", []⟩]⟩ (String.ofList loneData.json) := by
  have hA : ∀ c ∈ "A".toList, IsPlain c := by simp [IsPlain]
  have hkeys : ∀ key ∈ ["fields", "name"], IsKey key := by decide
  have hkeys' : ∀ key ∈ ["x", "enum", "struct", "y"], IsKey key := by decide
  have hfits : loneData.Fits (fun _ => True) 4 := by
    refine .table (by simpa using hkeys') ?_ (by simp)
    simp only [List.forall_mem_cons]
    refine ⟨.list ?_, .list (by simp), .list ?_, .integer trivial, by simp⟩
    · simp only [List.forall_mem_cons]
      exact ⟨.table (by simp) (by simp) (by simp), by simp⟩
    · simp only [List.forall_mem_cons]
      refine ⟨.table (by simpa using hkeys) ?_ (by simp), by simp⟩
      simp only [List.forall_mem_cons]
      exact ⟨.list (by simp), .text hA, by simp⟩
  have hname : IsStruct ⟨"A", []⟩ ((Datum.table [("fields", .list []), ("name", .text "A")]).fold
      valueShape) :=
    isObject_table (by simpa using hkeys) ⟨.given ⟨_, rfl, says_escape hA⟩, .given .nil⟩
  refine ⟨loneData.fold valueShape, isObject_table (by simpa using hkeys')
    ⟨.given .nil, .given (.cons hname .nil)⟩, ?_⟩
  rw [String.toList_ofList]
  exact (spells_json hfits).element

theorem parse_of_renders_loneData :
    Renders ⟨[], [⟨"A", []⟩]⟩ (String.ofList loneData.json) ∧
      Format.json.parse "<json>" (String.ofList loneData.json) = .ok ⟨[], [⟨"A", []⟩]⟩ :=
  ⟨renders_loneData, parse_of_renders "<json>" renders_loneData⟩

end SchemaHeaders.Json
