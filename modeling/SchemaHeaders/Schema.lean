/-!
# Schemas

A schema declares enums and structs. Everything is kept as the document spells it; what a
name becomes in a header, and whether the types that fields name exist, is decided later.
-/

namespace SchemaHeaders

/-- A member of an enum, with its value if it has one. -/
structure EnumMember where
  name : String
  value : Option Int64
  deriving DecidableEq

/-- An enum, with the name of its underlying type if it has one. -/
structure EnumEntry where
  name : String
  underlying : Option String
  members : List EnumMember
  deriving DecidableEq

/-- A field of a struct: the name of its type, and its length if it is an array. -/
structure Field where
  name : String
  typeName : String
  length : Option UInt32
  deriving DecidableEq

/-- A struct. -/
structure StructEntry where
  name : String
  fields : List Field
  deriving DecidableEq

/-- The types that a document declares. -/
structure Schema where
  enums : List EnumEntry
  structs : List StructEntry
  deriving DecidableEq

namespace Schema

/-- The schema without types. -/
def empty : Schema := ⟨[], []⟩

/-- Whether a schema declares no type. -/
def isEmpty (schema : Schema) : Bool := schema.enums.isEmpty && schema.structs.isEmpty

/-- The declared names, enums before structs, each as often as it is declared. -/
def declaredNames (schema : Schema) : List String :=
  schema.enums.map (·.name) ++ schema.structs.map (·.name)

end Schema

end SchemaHeaders
