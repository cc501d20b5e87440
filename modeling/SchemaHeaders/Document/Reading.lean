import SchemaHeaders.Complaint
import SchemaHeaders.Document.Node

/-!
# Reading values from document trees

Values are read in the order of the document, and the first complaint ends the reading. A
record is read from a table by a `Layout`: each entry whose key is a field is put into a
draft, and what the draft lacks is noticed at the end of the table. Formats that allow it
also take a list of values for a record, in the order of the fields (`ListForm`).
-/

namespace SchemaHeaders.Document

open Complaint (malformed)

/-! ## Scalars -/

/-- A text. -/
def readText (doc : Document) (node : Node) : Except Complaint String :=
  match doc.resolve node with
  | .scalar s =>
    match s.text with
    | some text => .ok text
    | none => .error malformed
  | _ => .error malformed

/-- An integer between two bounds, both included. -/
def readInteger (doc : Document) (low high : Int) (node : Node) : Except Complaint Int :=
  match doc.resolve node with
  | .scalar s =>
    match s.integer with
    | some z => if low ≤ z ∧ z ≤ high then .ok z else .error malformed
    | none => .error malformed
  | _ => .error malformed

/-- A number without a sign, up to a bound that is included. -/
def readNatural (doc : Document) (high : Nat) (node : Node) : Except Complaint Nat :=
  match doc.resolve node with
  | .scalar s =>
    match s.natural with
    | some n => if n ≤ high then .ok n else .error malformed
    | none => .error malformed
  | _ => .error malformed

/-- A value that may be absent. -/
def readOptional {α : Type} (doc : Document) (read : Node → Except Complaint α) (node : Node) :
    Except Complaint (Option α) :=
  match doc.resolve node with
  | .scalar s =>
    if s.absent then .ok none
    else if s.optional then some <$> read (.scalar s)
    else .error malformed
  | other => some <$> read other

/-! ## Lists -/

/-- The values of nodes, in order. -/
def readEach {α : Type} (read : Node → Except Complaint α) : List Node → Except Complaint (List α)
  | [] => .ok []
  | node :: nodes => do
    let x ← read node
    let xs ← readEach read nodes
    return x :: xs

/-- A list of values. -/
def readList {α : Type} (doc : Document) (read : Node → Except Complaint α) (node : Node) :
    Except Complaint (List α) :=
  match doc.resolve node with
  | .list items whole => do
    let xs ← readEach read items
    if whole then return xs else throw malformed
  | .scalar s => if s.blankList then .ok [] else .error malformed
  | _ => .error malformed

/-! ## Records -/

/-- Whether a list of values is taken for a record. -/
inductive ListForm where
  /-- it is not -/
  | refused
  /-- it is, if it holds no more values than the record has fields -/
  | exact
  /-- it is, and values beyond the last field do not matter -/
  | openEnded
  deriving DecidableEq

/-- How a record of type `α` is read, with drafts of type `δ`. -/
structure Layout (δ α : Type) where
  /-- the draft without any field -/
  start : δ
  /-- a draft with one more field, or `none` if there is no field of that key -/
  put : String → Node → δ → Option (Except Complaint δ)
  /-- the record of a draft to which all fields have been put -/
  finish : δ → Except Complaint α
  /-- the record of a list of values, and the values that are left -/
  ofItems : List Node → Except Complaint (α × List Node)

/-- A draft with the fields of a table. Entries that are no field need only make sense. -/
def readEntries {δ : Type} (doc : Document)
    (put : String → Node → δ → Option (Except Complaint δ)) :
    List (Node × Node) → δ → Except Complaint δ
  | [], draft => .ok draft
  | (key, value) :: entries, draft => do
    let name ← readText doc key
    match put name value draft with
    | some step =>
      let draft ← step
      readEntries doc put entries draft
    | none => if value.whole then readEntries doc put entries draft else throw malformed

/-- The record of the entries of a table. -/
def readTable {δ α : Type} (doc : Document) (layout : Layout δ α) (entries : List (Node × Node))
    (whole : Bool) : Except Complaint α := do
  let draft ← readEntries doc layout.put entries layout.start
  if whole then layout.finish draft else throw malformed

/-- The record of a list of values. -/
def readItems {δ α : Type} (form : ListForm) (layout : Layout δ α) (items : List Node)
    (whole : Bool) : Except Complaint α :=
  match form with
  | .refused => .error malformed
  | .exact => do
    let (record, left) ← layout.ofItems items
    if left.isEmpty && whole then return record else throw malformed
  | .openEnded => do
    let (record, _) ← layout.ofItems items
    return record

/-- A record. -/
def readRecord {δ α : Type} (doc : Document) (form : ListForm) (layout : Layout δ α)
    (node : Node) : Except Complaint α :=
  match doc.resolve node with
  | .table entries whole => readTable doc layout entries whole
  | .list items whole => readItems form layout items whole
  | .scalar s => if s.blankTable then readTable doc layout [] true else .error malformed
  | _ => .error malformed

/-- Puts a value into the place of a field, which must still be free. -/
def fill {α δ : Type} (name : String) (place : Option α) (value : Except Complaint α)
    (store : α → δ) : Except Complaint δ :=
  match place with
  | some _ => .error (.duplicateField name)
  | none => store <$> value

/-- The value of a field that a record must have. -/
def required {α : Type} (name : String) : Option α → Except Complaint α
  | some x => .ok x
  | none => .error (.missingField name)

/-- The next of a list of values, which must be there. -/
def nextItem {α : Type} (read : Node → Except Complaint α) :
    List Node → Except Complaint (α × List Node)
  | [] => .error malformed
  | node :: nodes => (·, nodes) <$> read node

/-- The next of a list of values, or a default at its end. -/
def nextItemD {α : Type} (read : Node → Except Complaint α) (default : α) :
    List Node → Except Complaint (α × List Node)
  | [] => .ok (default, [])
  | node :: nodes => (·, nodes) <$> read node

end SchemaHeaders.Document
