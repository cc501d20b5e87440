import SchemaHeaders.Backend
import SchemaHeaders.Schema

/-!
# Header units

A header unit is the file that one schema entry becomes. `emitEnum` and `emitStruct` settle
the names of an entry and have a backend spell it. An enum is refused for an underlying
type that is not primitive, and else if a member without a value follows one with a value.
A struct is never refused: types that are not primitive are recorded as required, and
whether they exist is checked once all entries have been seen.
-/

namespace SchemaHeaders

/-- The file of one schema entry. -/
structure HeaderUnit where
  /-- the name in the schema -/
  name : String
  /-- the name of the type in the file, and of the file itself -/
  typeName : String
  /-- the content of the file -/
  code : String
  /-- the names of the declared types it refers to, in the order of the fields -/
  requiredTypes : List String
  deriving DecidableEq

/-- Whether a member without a value follows a member with a value. -/
def gapAfterValue : List EnumMember → Bool
  | [] => false
  | m :: ms => if m.value.isSome then ms.any (·.value.isNone) else gapAfterValue ms

/-- A member with its final name. -/
def EnumMember.declare (m : EnumMember) : MemberDecl :=
  ⟨NameRole.enumMember.apply m.name, m.value⟩

/-- The underlying type of an enum, which must be primitive. -/
def EnumEntry.underlyingType (e : EnumEntry) : Except Failure (Option Primitive) :=
  match e.underlying with
  | none => .ok none
  | some type =>
    match Primitive.ofName? type with
    | some p => .ok (some p)
    | none => .error (.invalidDataType (NameRole.typeName.apply e.name) type)

/-- The header of an enum. -/
def emitEnum (backend : Backend) (e : EnumEntry) : Except Failure HeaderUnit := do
  let typeName := NameRole.typeName.apply e.name
  let underlying ← e.underlyingType
  if gapAfterValue e.members then throw (.missingValue typeName)
  let decl : EnumDecl := ⟨typeName, underlying, e.members.map (·.declare)⟩
  return ⟨e.name, typeName, backend.frame typeName (backend.renderEnum decl), []⟩

/-- A field with its final name and type. -/
def Field.declare (f : Field) : FieldDecl where
  name := NameRole.structMember.apply f.name
  type :=
    match Primitive.ofName? f.typeName with
    | some p => .primitive p
    | none => .named (NameRole.typeName.apply f.typeName)
  length := f.length

/-- The types of fields that are not primitive, in order and with repetitions. -/
def requiredTypes (fields : List Field) : List String :=
  (fields.map (·.typeName)).filter fun type => (Primitive.ofName? type).isNone

/-- The header of a struct. -/
def emitStruct (backend : Backend) (s : StructEntry) : HeaderUnit :=
  let typeName := NameRole.typeName.apply s.name
  let decl : StructDecl := ⟨typeName, s.fields.map (·.declare)⟩
  ⟨s.name, typeName, backend.frame typeName (backend.renderStruct decl), requiredTypes s.fields⟩

end SchemaHeaders
