/-!
# Document trees

The three document formats are read into one kind of tree. A scalar is what its text may be
taken for (`Scalar`), since the formats differ in that; lists and tables keep the order of
the document. Reading goes on only as far as a text makes sense: `Node.unreadable` stands
where it does not, and a list or a table that was not read to its end, or holds something
unreadable, is not `whole`. A reference stands for another node of the document by its slot.
-/

namespace SchemaHeaders

namespace Document

/-- What a scalar may be taken for. -/
structure Scalar where
  /-- the text it stands for, if it may be taken for a text -/
  text : Option String := none
  /-- the integer it stands for, if it may be taken for one -/
  integer : Option Int := none
  /-- the number it stands for, if it may be taken for one that has no sign -/
  natural : Option Nat := none
  /-- whether it stands for a value that is absent -/
  absent : Bool := false
  /-- whether it may be taken for an empty list -/
  blankList : Bool := false
  /-- whether it may be taken for a table without entries that matter -/
  blankTable : Bool := false
  /-- whether an optional value may be read from it -/
  optional : Bool := true
  deriving DecidableEq

/-- A part of a document. -/
inductive Node where
  /-- the text makes no sense here -/
  | unreadable
  | scalar (scalar : Scalar)
  | list (items : List Node) (whole : Bool)
  /-- a table: its keys with their values, in the order of the document -/
  | table (entries : List (Node × Node)) (whole : Bool)
  /-- what stands for the node in a slot of the document -/
  | reference (slot : Nat)

namespace Node

/-- Whether a node was read to its end and everything in it makes sense. -/
def whole : Node → Bool
  | unreadable => false
  | scalar _ => true
  | list _ whole => whole
  | table _ whole => whole
  | reference _ => true

/-- A text. -/
def ofText (text : String) : Node := scalar { text := some text }

/-- An integer; if it is not negative, also a number without a sign. -/
def ofInt (z : Int) : Node :=
  scalar { integer := some z, natural := if 0 ≤ z then some z.toNat else none }

/-- A list that was read to its end. -/
def ofList (items : List Node) : Node := list items (items.all whole)

/-- A table that was read to its end. -/
def ofEntries (entries : List (Node × Node)) : Node :=
  table entries (entries.all fun e => e.1.whole && e.2.whole)

end Node

end Document

/-- A whole document. -/
structure Document where
  root : Document.Node
  /-- the nodes that references stand for, by slot -/
  slots : List (Nat × Document.Node) := []
  /-- whether nothing else follows the root in the text -/
  ended : Bool := true

namespace Document

/-- The document of a text that makes no sense. -/
def unreadable : Document := { root := .unreadable }

/-- The node that a node stands for: that of its slot if it is a reference. -/
def resolve (doc : Document) : Node → Node
  | .reference slot => (doc.slots.lookup slot).getD .unreadable
  | node => node

end Document

end SchemaHeaders
