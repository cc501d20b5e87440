import SchemaHeaders.HeaderUnit

/-!
# Generation

`generate` turns a schema into header units. All entries are emitted first; an enum that
cannot be emitted ends the run at once. Then the whole is checked: every type that a struct
requires is declared somewhere in the schema, no name is declared twice, and no array has
length zero. The first fault in that order is the one reported.
-/

namespace SchemaHeaders

/-- The header units of a schema. -/
structure Generated where
  enums : List HeaderUnit
  structs : List HeaderUnit
  /-- the extension of the files -/
  extension : String
  deriving DecidableEq

namespace Generated

/-- The number of header units. -/
def size (g : Generated) : Nat := g.enums.length + g.structs.length

/-- Whether there is no header unit. -/
def isEmpty (g : Generated) : Bool := g.size == 0

end Generated

/-- The headers of enums, in order, or the failure of the first that has none. -/
def emitEnums (backend : Backend) : List EnumEntry → Except Failure (List HeaderUnit)
  | [] => .ok []
  | e :: es => do
    let unit ← emitEnum backend e
    let units ← emitEnums backend es
    return unit :: units

/-- The first required type that is not declared, with the struct that requires it. -/
def firstUndefined? (declared : List String) (structs : List HeaderUnit) :
    Option (String × String) :=
  structs.findSome? fun unit =>
    (unit.requiredTypes.find? fun type => !declared.contains type).map (·, unit.name)

/-- The first name in a list that occurs before, where `seen` stands before the list. -/
def firstRepeated? (seen : List String) : List String → Option String
  | [] => none
  | name :: names =>
    if seen.contains name then some name else firstRepeated? (name :: seen) names

/-- The first array field of length zero, with its struct. -/
def firstEmptyArray? (structs : List StructEntry) : Option (String × String) :=
  structs.findSome? fun s => (s.fields.find? (·.length == some 0)).map (s.name, ·.name)

/-- The first fault of a schema whose entries have all been emitted. -/
def validate (schema : Schema) (structs : List HeaderUnit) : Except Failure Unit :=
  match firstUndefined? schema.declaredNames structs with
  | some (type, requiredBy) => .error (.undefinedType type requiredBy)
  | none =>
    match firstRepeated? [] schema.declaredNames with
    | some name => .error (.duplicateType name)
    | none =>
      match firstEmptyArray? schema.structs with
      | some (structName, field) => .error (.invalidLength structName field)
      | none => .ok ()

/-- The header units of a schema, or its first fault. -/
def generate (backend : Backend) (schema : Schema) : Except Failure Generated := do
  let enums ← emitEnums backend schema.enums
  let structs := schema.structs.map (emitStruct backend)
  validate schema structs
  return ⟨enums, structs, backend.extension⟩

end SchemaHeaders
