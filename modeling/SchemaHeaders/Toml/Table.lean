import SchemaHeaders.Document.Node

/-!
# TOML tables

The values of a TOML text, and the tables that its lines build up. A table remembers how it
came about (`TableKind`), since that decides what may still be added to it: a table written
in braces is closed, one with a header of its own takes no dotted keys from elsewhere, and
one that only stands above others may still get a header. `Value.toNode` is the document
tree of a value, with the keys of each table in the order of their characters.
-/

namespace SchemaHeaders.Toml

/-- How a table came about. -/
inductive TableKind where
  /-- it is written in braces -/
  | braced
  /-- it is the root, has a header, or is a member of a list of tables -/
  | headed
  /-- it stands above a table that has a header -/
  | implied
  /-- a dotted key goes through it -/
  | dotted
  deriving DecidableEq

/-- A value. -/
inductive Value where
  | text (content : String)
  | integer (value : Int)
  /-- a number beyond every range -/
  | overflow
  /-- a number with a fraction, or a truth value -/
  | plain
  /-- a date, a time or both -/
  | moment
  /-- a list; `ofTables` says that its members are tables with headers -/
  | list (items : List Value) (ofTables : Bool)
  | table (kind : TableKind) (entries : List (String × Value))

/-- The keys of a table with their values, in the order of the text. -/
abbrev Entries := List (String × Value)

namespace Entries

/-- The entries with another value for a key that is there. -/
def replace (key : String) (value : Value) : Entries → Entries
  | [] => []
  | (k, v) :: es => if k = key then (k, value) :: es else (k, v) :: replace key value es

/-- Changes the table that a path leads to, from a table of the given kind. Tables that the
path lacks are made; a list of tables stands for its last member. `dotted` says that the
path is a dotted key and not a header. -/
def atPath (dotted : Bool) (act : TableKind → Entries → Option Entries) :
    List String → TableKind → Entries → Option Entries
  | [], kind, es => act kind es
  | key :: path, _, es =>
    match es.lookup key with
    | none =>
      let kind := if dotted then TableKind.dotted else TableKind.implied
      (fun inner => es ++ [(key, .table kind inner)]) <$> atPath dotted act path kind []
    | some (.table kind inner) =>
      if kind = .braced ∨ (dotted ∧ kind = .headed) then none
      else
        (fun inner => replace key (.table kind inner) es) <$> atPath dotted act path kind inner
    | some (.list items true) =>
      match items.getLast? with
      | some (.table kind inner) =>
        (fun inner => replace key (.list (items.dropLast ++ [.table kind inner]) true) es) <$>
          atPath dotted act path kind inner
      | _ => none
    | some _ => none

/-- Adds a new entry. A dotted key adds only to tables that dotted keys made. -/
def add (nested : Bool) (key : String) (value : Value) (kind : TableKind) (es : Entries) :
    Option Entries :=
  if (kind = .dotted) ≠ (nested = true) then none
  else
    match es.lookup key with
    | some _ => none
    | none => some (es ++ [(key, value)])

/-- Adds an entry whose key is a path. -/
def insert (path : List String) (value : Value) (kind : TableKind) (es : Entries) :
    Option Entries :=
  match path.getLast? with
  | none => none
  | some key => atPath true (add (path.length > 1) key value) path.dropLast kind es

/-- Puts a header's key into a table: with a first value if it is new, or else with what the
header makes of its value, if it may stand there again. -/
def putHeader (first : Value) (again? : Value → Option Value) (key : String) (es : Entries) :
    Option Entries :=
  match es.lookup key with
  | none => some (es ++ [(key, first)])
  | some value => (fun value => replace key value es) <$> again? value

/-- Begins what a header is for, in the table above it. -/
def openHeader (first : Value) (again? : Value → Option Value) (path : List String)
    (es : Entries) : Option Entries :=
  match path.getLast? with
  | none => none
  | some key => atPath false (fun _ => putHeader first again? key) path.dropLast .headed es

/-- Begins a table with a header. -/
def openTable : List String → Entries → Option Entries :=
  openHeader (.table .headed []) fun
    | .table .implied inner => some (.table .headed inner)
    | _ => none

/-- Begins the next member of a list of tables. -/
def openMember : List String → Entries → Option Entries :=
  openHeader (.list [.table .headed []] true) fun
    | .list items true => some (.list (items ++ [.table .headed []]) true)
    | _ => none

/-- Puts an entry into its place among entries in the order of their keys. -/
def insertSorted {α : Type} (entry : String × α) : List (String × α) → List (String × α)
  | [] => [entry]
  | e :: es => if entry.1 < e.1 then entry :: e :: es else e :: insertSorted entry es

/-- Entries in the order of their keys. -/
def sorted {α : Type} : List (String × α) → List (String × α)
  | [] => []
  | e :: es => insertSorted e (sorted es)

end Entries

open Document (Node)

/-- The least and the greatest integer that have a meaning anywhere in a document. -/
def integerRange : Int × Int := (-(Nat.pow 2 127 : Nat), (Nat.pow 2 128 : Nat) - 1)

mutual

/-- The document tree of a value. A moment may stand for a table without known keys. -/
def Value.toNode : Value → Node
  | .text content => .ofText content
  | .integer z =>
    if integerRange.1 ≤ z ∧ z ≤ integerRange.2 then .ofInt z else .unreadable
  | .overflow => .unreadable
  | .plain => .scalar {}
  | .moment => .scalar { blankTable := true }
  | .list items _ => .ofList (nodesOf items)
  | .table _ entries =>
    .ofEntries ((Entries.sorted (entryNodesOf entries)).map fun e => (.ofText e.1, e.2))

/-- The document trees of values. -/
def nodesOf : List Value → List Node
  | [] => []
  | v :: vs => v.toNode :: nodesOf vs

/-- The document trees of entries. -/
def entryNodesOf : List (String × Value) → List (String × Node)
  | [] => []
  | (k, v) :: es => (k, v.toNode) :: entryNodesOf es

end

end SchemaHeaders.Toml
