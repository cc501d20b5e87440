import SchemaHeaders.Document.Reading
import SchemaHeaders.Schema

/-!
# Schemas in documents

The layouts of the records of a schema, and `readSchema`, which reads a schema from the root of a
document. Keys that are no field are passed over.
-/

namespace SchemaHeaders.Document

/-! ## Values and lengths -/

/-- The value of an enum member: a signed integer of 64 bits. -/
def readValue (doc : Document) (node : Node) : Except Complaint Int64 :=
  Int64.ofInt <$> readInteger doc Int64.minValue.toInt Int64.maxValue.toInt node

/-- The length of an array: an unsigned integer of 32 bits. -/
def readLength (doc : Document) (node : Node) : Except Complaint UInt32 :=
  UInt32.ofNat <$> readNatural doc (UInt32.size - 1) node

/-! ## Members and enums -/

/-- What has been read of an enum member. -/
structure MemberDraft where
  name : Option String := none
  value : Option (Option Int64) := none

/-- The layout of an enum member. -/
def memberLayout (doc : Document) : Layout MemberDraft EnumMember where
  start := {}
  put key node d :=
    match key with
    | "name" => some (fill key d.name (readText doc node) fun x => { d with name := some x })
    | "value" =>
      some (fill key d.value (readOptional doc (readValue doc) node) fun x =>
        { d with value := some x })
    | _ => none
  finish d := do
    let name ← required "name" d.name
    return ⟨name, d.value.getD none⟩
  ofItems items := do
    let (name, items) ← nextItem (readText doc) items
    let (value, items) ← nextItemD (readOptional doc (readValue doc)) none items
    return (⟨name, value⟩, items)

/-- An enum member. -/
def readMember (doc : Document) (form : ListForm) : Node → Except Complaint EnumMember :=
  readRecord doc form (memberLayout doc)

/-- What has been read of an enum. -/
structure EnumDraft where
  name : Option String := none
  underlying : Option (Option String) := none
  members : Option (List EnumMember) := none

/-- The layout of an enum. -/
def enumLayout (doc : Document) (form : ListForm) : Layout EnumDraft EnumEntry where
  start := {}
  put key node d :=
    match key with
    | "name" => some (fill key d.name (readText doc node) fun x => { d with name := some x })
    | "type" =>
      some (fill key d.underlying (readOptional doc (readText doc) node) fun x =>
        { d with underlying := some x })
    | "values" =>
      some (fill key d.members (readList doc (readMember doc form) node) fun x =>
        { d with members := some x })
    | _ => none
  finish d := do
    let name ← required "name" d.name
    return ⟨name, d.underlying.getD none, d.members.getD []⟩
  ofItems items := do
    let (name, items) ← nextItem (readText doc) items
    let (underlying, items) ← nextItemD (readOptional doc (readText doc)) none items
    let (members, items) ← nextItemD (readList doc (readMember doc form)) [] items
    return (⟨name, underlying, members⟩, items)

/-- An enum. -/
def readEnum (doc : Document) (form : ListForm) : Node → Except Complaint EnumEntry :=
  readRecord doc form (enumLayout doc form)

/-! ## Fields and structs -/

/-- What has been read of a field. -/
structure FieldDraft where
  name : Option String := none
  typeName : Option String := none
  length : Option (Option UInt32) := none

/-- The layout of a field. -/
def fieldLayout (doc : Document) : Layout FieldDraft Field where
  start := {}
  put key node d :=
    match key with
    | "name" => some (fill key d.name (readText doc node) fun x => { d with name := some x })
    | "type" =>
      some (fill key d.typeName (readText doc node) fun x => { d with typeName := some x })
    | "length" =>
      some (fill key d.length (readOptional doc (readLength doc) node) fun x =>
        { d with length := some x })
    | _ => none
  finish d := do
    let name ← required "name" d.name
    let typeName ← required "type" d.typeName
    return ⟨name, typeName, d.length.getD none⟩
  ofItems items := do
    let (name, items) ← nextItem (readText doc) items
    let (typeName, items) ← nextItem (readText doc) items
    let (length, items) ← nextItemD (readOptional doc (readLength doc)) none items
    return (⟨name, typeName, length⟩, items)

/-- A field. -/
def readField (doc : Document) (form : ListForm) : Node → Except Complaint Field :=
  readRecord doc form (fieldLayout doc)

/-- What has been read of a struct. -/
structure StructDraft where
  name : Option String := none
  fields : Option (List Field) := none

/-- The layout of a struct. -/
def structLayout (doc : Document) (form : ListForm) : Layout StructDraft StructEntry where
  start := {}
  put key node d :=
    match key with
    | "name" => some (fill key d.name (readText doc node) fun x => { d with name := some x })
    | "fields" =>
      some (fill key d.fields (readList doc (readField doc form) node) fun x =>
        { d with fields := some x })
    | _ => none
  finish d := do
    let name ← required "name" d.name
    return ⟨name, d.fields.getD []⟩
  ofItems items := do
    let (name, items) ← nextItem (readText doc) items
    let (fields, items) ← nextItemD (readList doc (readField doc form)) [] items
    return (⟨name, fields⟩, items)

/-- A struct. -/
def readStruct (doc : Document) (form : ListForm) : Node → Except Complaint StructEntry :=
  readRecord doc form (structLayout doc form)

/-! ## Schemas -/

/-- What has been read of a schema. -/
structure SchemaDraft where
  enums : Option (List EnumEntry) := none
  structs : Option (List StructEntry) := none

/-- The layout of a schema. -/
def schemaLayout (doc : Document) (form : ListForm) : Layout SchemaDraft Schema where
  start := {}
  put key node d :=
    match key with
    | "enum" =>
      some (fill key d.enums (readList doc (readEnum doc form) node) fun x =>
        { d with enums := some x })
    | "struct" =>
      some (fill key d.structs (readList doc (readStruct doc form) node) fun x =>
        { d with structs := some x })
    | _ => none
  finish d := return ⟨d.enums.getD [], d.structs.getD []⟩
  ofItems items := do
    let (enums, items) ← nextItemD (readList doc (readEnum doc form)) [] items
    let (structs, items) ← nextItemD (readList doc (readStruct doc form)) [] items
    return (⟨enums, structs⟩, items)

/-- The schema of a document, at whose root nothing else may follow. -/
def readSchema (doc : Document) (form : ListForm) : Except Complaint Schema := do
  let schema ← readRecord doc form (schemaLayout doc form) doc.root
  if doc.ended then return schema else throw Complaint.malformed

end SchemaHeaders.Document
