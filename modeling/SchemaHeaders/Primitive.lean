/-!
# Primitive types

The types that a schema may use without declaring them. `Primitive.ofName?` finds the one
of a name; a name that has none refers to a declared type.
-/

namespace SchemaHeaders

/-- A type that a schema may use without declaring it. -/
inductive Primitive where
  | uint8
  | uint16
  | uint32
  | int8
  | int16
  | int32
  | float
  | char
  deriving DecidableEq, Repr

namespace Primitive

/-- All primitive types, in the order of their declaration. -/
def all : List Primitive := [uint8, uint16, uint32, int8, int16, int32, float, char]

/-- The name of a primitive type in a schema. -/
def name : Primitive → String
  | uint8 => "uint8"
  | uint16 => "uint16"
  | uint32 => "uint32"
  | int8 => "int8"
  | int16 => "int16"
  | int32 => "int32"
  | float => "float"
  | char => "char"

/-- The primitive type of a name. -/
def ofName? (name : String) : Option Primitive := all.find? fun p => p.name == name

theorem mem_all (p : Primitive) : p ∈ all := by cases p <;> decide

theorem name_injective {p q : Primitive} (h : p.name = q.name) : p = q := by
  cases p <;> cases q <;> first | rfl | exact absurd h (by decide)

/-- A primitive type is found by its name. -/
theorem ofName?_name (p : Primitive) : ofName? p.name = some p := by cases p <;> decide

/-- What is found by a name has that name. -/
theorem name_of_ofName? {name : String} {p : Primitive} (h : ofName? name = some p) :
    p.name = name := by
  have := List.find?_some h
  simpa using this

end Primitive

end SchemaHeaders
