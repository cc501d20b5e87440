import SchemaHeaders.Document.Types
import SchemaHeaders.Text.Blank
import SchemaHeaders.Yaml.Scalar

/-!
# YAML documents

`State.run` takes the tokens of a YAML text one by one. The state holds the collections that
are still open, the slot that the next token stands in, and the anchor and the tag in front
of the node that comes next. Before a token is taken, `State.settle` fills what the text
leaves empty in front of it: nodes, values, and the ends of lists and pairs that no token
marks. Anchored nodes are numbered in the order in which they begin; the slot that an alias
refers to is the number of names known before, and of the nodes in one slot the latest
counts. `schemaOf` reads the schema of a whole text.
-/

namespace SchemaHeaders.Yaml

open Document (Node Scalar)

/-! ## Anchors -/

/-- The anchored nodes of a document. -/
structure Anchors where
  /-- the slot of each name -/
  names : List (String × Nat) := []
  /-- the slots of the anchored nodes, newest first -/
  slots : List Nat := []
  /-- the anchored nodes that have ended, by number -/
  nodes : List (Nat × Node) := []

namespace Anchors

/-- A node of that name begins. -/
def start (a : Anchors) (name : String) : Anchors :=
  let slot := a.names.length
  { a with names := (name, slot) :: a.names.filter (·.1 ≠ name), slots := slot :: a.slots }

/-- The node of that number has ended. -/
def finish (a : Anchors) (number : Option Nat) (node : Node) : Anchors :=
  match number with
  | some n => { a with nodes := (n, node) :: a.nodes }
  | none => a

/-- The nodes in slots, of which the first in each counts. -/
def tableOf (nodes : List (Nat × Node)) : List Nat → List (Nat × Node)
  | [] => []
  | slot :: slots =>
    (slot, (nodes.lookup slots.length).getD .unreadable) :: tableOf nodes slots

/-- The nodes that aliases refer to. -/
def table (a : Anchors) : List (Nat × Node) := tableOf a.nodes a.slots

end Anchors

/-! ## Slots -/

/-- What the next token stands in. -/
inductive Slot where
  /-- before the root -/
  | root
  /-- after the root -/
  | done
  /-- before a hyphen of a block sequence, or its end -/
  | blockItem
  /-- after a hyphen of a block sequence -/
  | blockItemNode
  /-- before a hyphen of a sequence in the column of its key, or its end -/
  | entry
  /-- after a hyphen of such a sequence -/
  | entryNode
  /-- before a key of a block mapping, or its end -/
  | blockKey
  | blockKeyNode
  /-- before the colon of an entry of a block mapping -/
  | blockValue
  | blockValueNode
  /-- before an item of a flow sequence, or its end -/
  | flowItem
  /-- after an item of a flow sequence -/
  | flowItemEnd
  /-- before the key of a pair in a flow sequence -/
  | pairKey
  | pairValue
  | pairValueNode
  | pairEnd
  /-- before an entry of a flow mapping, or its end -/
  | flowKey
  | flowKeyNode
  /-- after a key of a flow mapping that no sign announced -/
  | flowBareKey
  | flowValue
  | flowValueNode
  /-- after an entry of a flow mapping -/
  | flowKeyEnd
  deriving DecidableEq

/-- The place of a node. -/
structure Vacancy where
  /-- the slot after the node -/
  after : Slot
  /-- whether the node may be a block -/
  block : Bool := false
  /-- whether the node may be a sequence in the column of its key -/
  entries : Bool := false
  /-- the tokens before which nothing need be written -/
  empty : List Token := []

/-- The place of a node that a slot is. -/
def Slot.vacancy? : Slot → Option Vacancy
  | root => some ⟨done, true, false, [.documentStart, .documentEnd, .streamEnd]⟩
  | blockItemNode => some ⟨blockItem, true, false, [.blockEntry, .blockEnd]⟩
  | entryNode => some ⟨entry, true, false, [.blockEntry, .key, .value, .blockEnd]⟩
  | blockKeyNode => some ⟨blockValue, true, true, [.key, .value, .blockEnd]⟩
  | blockValueNode => some ⟨blockKey, true, true, [.key, .value, .blockEnd]⟩
  | flowItem => some ⟨flowItemEnd, false, false, []⟩
  | pairKey => some ⟨pairValue, false, false, []⟩
  | pairValueNode => some ⟨pairEnd, false, false, [.flowEntry, .flowSequenceEnd]⟩
  | flowKey => some ⟨flowBareKey, false, false, []⟩
  | flowKeyNode => some ⟨flowValue, false, false, [.value, .flowEntry, .flowMappingEnd]⟩
  | flowValueNode => some ⟨flowKeyEnd, false, false, [.flowEntry, .flowMappingEnd]⟩
  | _ => none

/-- The slot after a value that is left out together with its colon. -/
def Slot.withoutValue? : Slot → Option Slot
  | blockValue => some blockKey
  | pairValue => some pairEnd
  | flowValue | flowBareKey => some flowKeyEnd
  | _ => none

/-! ## States -/

/-- What stands in front of a node. -/
structure Properties where
  anchor : Option String := none
  tag : Option String := none
  deriving DecidableEq

/-- Whether a token goes on with the node that properties stand in front of. -/
def Vacancy.admits (v : Vacancy) (p : Properties) : Token → Bool
  | .scalar .. | .flowSequenceStart | .flowMappingStart => true
  | .blockSequenceStart | .blockMappingStart => v.block
  | .blockEntry => v.entries
  | .anchor _ => p.anchor.isNone
  | .tag _ => p.tag.isNone
  | _ => false

/-- The parts of a collection that is still open, newest first. -/
inductive Body where
  | sequence (items : List Node)
  /-- a mapping, with a key if the value of that key has not been read -/
  | mapping (entries : List (Node × Node)) (key : Option Node)

/-- A collection that is still open. -/
structure Frame where
  body : Body
  /-- the slot after it -/
  after : Slot
  /-- its number, if it is anchored -/
  number : Option Nat

/-- A document that has been read in part. -/
structure State where
  /-- the collections that are open, innermost first -/
  stack : List Frame := []
  slot : Slot := .root
  properties : Properties := {}
  anchors : Anchors := {}
  root : Option Node := none

namespace Body

/-- One more part. -/
def supply (node : Node) : Body → Body
  | sequence items => sequence (node :: items)
  | mapping entries none => mapping entries (some node)
  | mapping entries (some key) => mapping ((key, node) :: entries) none

/-- The node of a collection that has ended. -/
def node : Body → Node
  | sequence items => .ofList items.reverse
  | mapping entries _ => .ofEntries entries.reverse

/-- The node of a collection that breaks off, around what was being read last. -/
def broken (inner : Option Node) : Body → Node
  | sequence items => .list (inner.toList ++ items).reverse false
  | mapping entries none => .table entries.reverse false
  | mapping entries (some key) =>
    .table ((key, inner.getD .unreadable) :: entries).reverse false

end Body

namespace State

/-! ## Nodes -/

/-- A node has ended, after which a slot follows. -/
def supply (s : State) (after : Slot) (number : Option Nat) (node : Node) : State :=
  let s := { s with slot := after, anchors := s.anchors.finish number node }
  match s.stack with
  | [] => { s with root := some node }
  | frame :: stack => { s with stack := { frame with body := frame.body.supply node } :: stack }

/-- A node begins with the properties in front of it, which give it a number if it is
anchored. -/
def start (s : State) : State × Option Nat :=
  match s.properties.anchor with
  | none => ({ s with properties := {} }, none)
  | some name =>
    ({ s with properties := {}, anchors := s.anchors.start name }, some s.anchors.slots.length)

/-- A scalar. -/
def supplyScalar (s : State) (after : Slot) (scalar : Scalar) : State :=
  let (s, number) := s.start
  s.supply after number (.scalar scalar)

/-- A collection begins. -/
def openFrame (s : State) (after : Slot) (body : Body) (slot : Slot) : State :=
  let (s, number) := s.start
  { s with stack := ⟨body, after, number⟩ :: s.stack, slot }

/-- The innermost collection ends. -/
def close (s : State) : State :=
  match s.stack with
  | [] => s
  | frame :: stack => { s with stack }.supply frame.after frame.number frame.body.node

/-! ## What the text leaves empty -/

/-- Fills the place of a node that a token leaves empty. -/
def settleNode (s : State) (t : Token) : State :=
  match s.slot.vacancy? with
  | none => s
  | some v =>
    let left :=
      if s.properties = {} then v.empty.contains t else !v.admits s.properties t
    if left then s.supplyScalar v.after (scalarOf .plain s.properties.tag "") else s

/-- Ends a sequence in the column of its key, if no hyphen follows. -/
def settleEntries (s : State) (t : Token) : State :=
  if s.slot = .entry ∧ t ≠ .blockEntry then s.close else s

/-- Fills the place of a value, if no colon follows its key. -/
def settleValue (s : State) (t : Token) : State :=
  match s.slot.withoutValue? with
  | some after =>
    if s.slot = .flowBareKey ∨ t ≠ .value then s.supplyScalar after blankScalar else s
  | none => s

/-- Ends a pair in a flow sequence. -/
def settlePair (s : State) : State := if s.slot = .pairEnd then s.close else s

/-- Fills all that a token leaves empty. -/
def settle (s : State) (t : Token) : State :=
  (((s.settleNode t).settleEntries t).settleValue t).settlePair

/-! ## What the text holds -/

/-- The tag of a name, by what handles stand for. -/
def tagOf? (handles : List (String × String)) (name : TagName) : Option String :=
  if name.handle = "" then some name.suffix
  else (handles.lookup name.handle).map (· ++ name.suffix)

/-- The tag of a scalar; the tag of a single mark says nothing. -/
def scalarTag (tag : Option String) : Option String := if tag = some "!" then none else tag

/-- A token of a node. -/
def takeNode? (handles : List (String × String)) (s : State) (v : Vacancy) :
    Token → Option State
  | .reference name =>
    if s.properties = {} then
      (s.anchors.names.lookup name).map fun slot => s.supply v.after none (.reference slot)
    else none
  | .anchor name =>
    if s.properties.anchor = none then
      some { s with properties := { s.properties with anchor := some name } }
    else none
  | .tag name =>
    if s.properties.tag = none then
      (tagOf? handles name).map fun tag =>
        { s with properties := { s.properties with tag := some tag } }
    else none
  | .scalar style text =>
    some (s.supplyScalar v.after (scalarOf style (scalarTag s.properties.tag) text))
  | .flowSequenceStart => some (s.openFrame v.after (.sequence []) .flowItem)
  | .flowMappingStart => some (s.openFrame v.after (.mapping [] none) .flowKey)
  | .blockSequenceStart =>
    if v.block then some (s.openFrame v.after (.sequence []) .blockItem) else none
  | .blockMappingStart =>
    if v.block then some (s.openFrame v.after (.mapping [] none) .blockKey) else none
  | .blockEntry =>
    if v.entries then some (s.openFrame v.after (.sequence []) .entryNode) else none
  | _ => none

/-- The slot after a token that is no part of a node. -/
def nextSlot? : Slot → Token → Option Slot
  | .blockItem, .blockEntry => some .blockItemNode
  | .entry, .blockEntry => some .entryNode
  | .blockKey, .key => some .blockKeyNode
  | .blockValue, .value => some .blockValueNode
  | .flowItemEnd, .flowEntry => some .flowItem
  | .pairValue, .value => some .pairValueNode
  | .flowKey, .key => some .flowKeyNode
  | .flowValue, .value => some .flowValueNode
  | .flowKeyEnd, .flowEntry => some .flowKey
  | _, _ => none

/-- Whether a token ends the innermost collection. -/
def isEnd : Slot → Token → Bool
  | .blockItem, .blockEnd | .blockKey, .blockEnd => true
  | .flowItem, .flowSequenceEnd | .flowItemEnd, .flowSequenceEnd => true
  | .flowKey, .flowMappingEnd | .flowKeyEnd, .flowMappingEnd => true
  | _, _ => false

/-- A token before which nothing is left to be filled. A sign that cannot begin the key of a
pair is taken for an empty key. -/
def take? (handles : List (String × String)) (s : State) (t : Token) : Option State :=
  if s.properties = {} ∧ isEnd s.slot t then some s.close
  else if s.properties = {} ∧ s.slot = .flowItem ∧ t = .key then
    some (s.openFrame .flowItemEnd (.mapping [] none) .pairKey)
  else if s.properties = {} ∧ s.slot = .pairKey ∧
      (t = .value ∨ t = .flowEntry ∨ t = .flowSequenceEnd) then
    some (s.supplyScalar .pairValue blankScalar)
  else
    match nextSlot? s.slot t with
    | some slot => some { s with slot }
    | none => s.slot.vacancy?.bind fun v => takeNode? handles s v t

/-! ## Documents -/

/-- The collections that are open, broken off around what was being read last. -/
def unwind (anchors : Anchors) : List Frame → Option Node → Document
  | [], inner => { root := inner.getD .unreadable, slots := anchors.table, ended := false }
  | frame :: stack, inner =>
    let node := frame.body.broken inner
    unwind (anchors.finish frame.number node) stack (some node)

/-- Whether tokens after the root say that nothing else follows. -/
def isRest : List Token → Bool
  | [.streamEnd] => true
  | .documentEnd :: ts => isRest ts
  | _ => false

/-- The document of a state that has read the root, before other tokens. -/
def finish (s : State) (rest : List Token) : Document :=
  { root := s.root.getD .unreadable, slots := s.anchors.table, ended := isRest rest }

/-- The document of a state and the tokens that follow. -/
def run (handles : List (String × String)) (s : State) : List Token → Document
  | [] => if s.slot = .done then s.finish [] else unwind s.anchors s.stack none
  | t :: ts =>
    let s := s.settle t
    if s.slot = .done then s.finish (t :: ts)
    else
      match s.take? handles t with
      | some s => s.run handles ts
      | none => unwind s.anchors s.stack none

end State

/-- What handles stand for if no directive says otherwise. -/
def coreHandles : List (String × String) := [("!", "!"), ("!!", coreAddress)]

/-- What the directives before a document say that handles stand for, and the tokens of the
document. -/
def prologue? (hasVersion : Bool) (handles : List (String × String)) :
    List Token → Option (List (String × String) × List Token)
  | .directive (.version major minor) :: ts =>
    if hasVersion ∨ major ≠ 1 ∨ (minor ≠ 1 ∧ minor ≠ 2) then none
    else prologue? true handles ts
  | .directive (.tag handle address) :: ts =>
    if handles.any (·.1 = handle) then none
    else prologue? hasVersion ((handle, address) :: handles) ts
  | .documentStart :: ts => some (handles, ts)
  | _ => none

/-- The document of the tokens of a text. -/
def ofTokens (tokens : List Token) : Document :=
  match tokens with
  | [] | .documentEnd :: _ => { Document.unreadable with ended := false }
  | .streamEnd :: _ => { root := .scalar blankScalar }
  | .documentStart :: _ | .directive _ :: _ =>
    match prologue? false [] tokens with
    | some (handles, ts) => State.run (handles ++ coreHandles) {} ts
    | none => { Document.unreadable with ended := false }
  | ts => State.run coreHandles {} ts

/-- The document of a YAML text. -/
def documentOf (text : String) : Document :=
  let cs := text.toList
  if cs.all isAllowed then ofTokens (Token.scan cs) else .unreadable

/-- The schema of a YAML text. A text that is blank declares nothing. -/
def schemaOf (text : String) : Except Complaint Schema :=
  if Text.isBlankText text.toList then .ok .empty
  else Document.readSchema (documentOf text) .refused

end SchemaHeaders.Yaml
