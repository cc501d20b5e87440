import SchemaHeaders.Failure
import SchemaHeaders.Primitive
import SchemaHeaders.Text.Decimal
import SchemaHeaders.Naming

/-!
# Declarations and the languages that spell them

A declaration is an enum or a struct whose names are final. A `Backend` spells declarations
in a target language and frames them as files. `Backend.cpp` writes C++ headers, each
guarded by the upper case name of its type; `Backend.find` looks a backend up by name.
-/

namespace SchemaHeaders

/-! ## Declarations -/

/-- A member of a declared enum. -/
structure MemberDecl where
  name : String
  value : Option Int64
  deriving DecidableEq

/-- An enum declaration. -/
structure EnumDecl where
  name : String
  underlying : Option Primitive
  members : List MemberDecl
  deriving DecidableEq

/-- The type of a declared field: a primitive type, or the name of a declared type. -/
inductive FieldType where
  | primitive (type : Primitive)
  | named (name : String)
  deriving DecidableEq

/-- A field of a declared struct. -/
structure FieldDecl where
  name : String
  type : FieldType
  length : Option UInt32
  deriving DecidableEq

/-- A struct declaration. -/
structure StructDecl where
  name : String
  fields : List FieldDecl
  deriving DecidableEq

/-! ## Backends -/

/-- A target language. -/
structure Backend where
  /-- the name it goes by -/
  name : String
  /-- the extension of its files, with the dot -/
  extension : String
  /-- the spelling of a primitive type -/
  spelling : Primitive → String
  /-- an enum declaration -/
  renderEnum : EnumDecl → String
  /-- a struct declaration -/
  renderStruct : StructDecl → String
  /-- the file that declares the type of that name, around its declaration -/
  frame : String → String → String

/-- The spelling of the primitive type of that name, if there is one. -/
def Backend.spelling? (backend : Backend) (name : String) : Option String :=
  (Primitive.ofName? name).map backend.spelling

namespace Cpp

/-- The type that stands for a primitive type; characters are bytes. -/
def spelling : Primitive → String
  | .uint8 => "uint8_t"
  | .uint16 => "uint16_t"
  | .uint32 => "uint32_t"
  | .int8 => "int8_t"
  | .int16 => "int16_t"
  | .int32 => "int32_t"
  | .float => "float_t"
  | .char => "int8_t"

/-- The line of an enum member. -/
def memberLine (m : MemberDecl) : String :=
  match m.value with
  | some v => "\t" ++ m.name ++ " = " ++ String.ofList (Text.signed v.toInt) ++ ",\n"
  | none => "\t" ++ m.name ++ ",\n"

/-- What follows the name of an enum: its underlying type, if it has one. -/
def underlyingSuffix : Option Primitive → String
  | some p => " : " ++ spelling p
  | none => ""

/-- An enum declaration. -/
def renderEnum (d : EnumDecl) : String :=
  "enum " ++ d.name ++ underlyingSuffix d.underlying ++ "\n\x7b\n" ++
    String.join (d.members.map memberLine) ++ "\x7d;\n"

/-- The spelling of the type of a field. -/
def typeSpelling : FieldType → String
  | .primitive p => spelling p
  | .named name => name

/-- What follows the name of a field: its length in brackets, if it is an array. -/
def lengthSuffix : Option UInt32 → String
  | some n => "[" ++ String.ofList (Text.digits n.toNat) ++ "]"
  | none => ""

/-- The line of a field. -/
def fieldLine (f : FieldDecl) : String :=
  "\t" ++ typeSpelling f.type ++ " " ++ f.name ++ lengthSuffix f.length ++ ";\n"

/-- A struct declaration. -/
def renderStruct (d : StructDecl) : String :=
  "struct " ++ d.name ++ "\n\x7b\n" ++ String.join (d.fields.map fieldLine) ++ "\x7d;\n"

/-- The macro that keeps a header from being read twice. -/
def guardName (typeName : String) : String := upperCase typeName ++ "_H"

/-- A header around a declaration. -/
def frame (typeName body : String) : String :=
  let guard := guardName typeName
  "// Auto-generated by liquidgen\n" ++
  "// DO NOT EDIT - regenerate with: liquidgen generate\n\n" ++
  "#ifndef " ++ guard ++ "\n" ++
  "#define " ++ guard ++ "\n\n" ++
  "#include <cstdint>\n\n" ++
  body ++ "\n" ++
  "#endif // " ++ guard ++ "\n"

end Cpp

/-- C++ headers. -/
def Backend.cpp : Backend where
  name := "cpp"
  extension := ".h"
  spelling := Cpp.spelling
  renderEnum := Cpp.renderEnum
  renderStruct := Cpp.renderStruct
  frame := Cpp.frame

/-- The backend that goes by a name. -/
def Backend.find (name : String) : Except Failure Backend :=
  if name = "cpp" ∨ name = "c++" then .ok .cpp else .error (.unknownBackend name)

end SchemaHeaders
