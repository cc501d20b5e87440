import SchemaHeaders.Document.Types
import SchemaHeaders.Toml.Scalar
import SchemaHeaders.Toml.Token

/-!
# TOML documents

`State.step` takes the tokens of a TOML text one by one. The state holds the table that the
lines so far have built, the path of the header above the present line, and what the present
line is in the middle of (`Place`), with a stack of the lists and braced tables that are
still open. `documentOf` is the tree of a whole text, and `schemaOf` reads its schema; a
record may be written as a list of values, of which those beyond the last field do not
matter.
-/

namespace SchemaHeaders.Toml

/-! ## Keys -/

/-- A key that is being read: the words so far, newest first, and whether a word must
follow. -/
structure KeyDraft where
  words : List String := []
  wanted : Bool := true

namespace KeyDraft

/-- Whether a character may stand in a word without quotes. -/
def isWordChar (c : Char) : Bool := c.isAlphanum || c == '_' || c == '-'

/-- A word follows. -/
def word (key : KeyDraft) (w : String) : Option KeyDraft :=
  if key.wanted then some ⟨w :: key.words, false⟩ else none

/-- A word without quotes follows, if there is one between two dots. -/
def bareWord (key : KeyDraft) (w : List Char) : Option KeyDraft :=
  if w = [] then some key
  else if w.all isWordChar then key.word (String.ofList w)
  else none

/-- A dot follows. -/
def dot (key : KeyDraft) : Option KeyDraft :=
  if key.wanted then none else some { key with wanted := true }

/-- Words that follow a dot each. -/
def dottedWords (key : KeyDraft) : List (List Char) → Option KeyDraft
  | [] => some key
  | w :: ws => do
    let key ← key.dot
    let key ← key.bareWord w
    key.dottedWords ws

/-- A token of a key follows. -/
def step (key : KeyDraft) : Token → Option KeyDraft
  | .bare run => do
    let (w, ws) := Text.pieces '.' run
    let key ← key.bareWord w
    key.dottedWords ws
  | .text w false => key.word w
  | _ => none

/-- The path of a complete key. -/
def path? (key : KeyDraft) : Option (List String) :=
  if key.wanted then none else some key.words.reverse

end KeyDraft

/-! ## Lines -/

/-- A list or a braced table that is still open. -/
inductive Frame where
  /-- a list, its members newest first -/
  | list (items : List Value)
  /-- a table, with the path of the entry whose value is read -/
  | table (entries : Entries) (path : List String)

/-- What the text is in the middle of. Where values are read, it says for which path of the
present table and within what. -/
inductive Place where
  | lineStart
  | lineEnd
  /-- in the name of a header -/
  | header (ofTables : Bool) (key : KeyDraft)
  /-- before the second bracket that ends a header -/
  | headerEnd (path : List String)
  /-- in the key of a line -/
  | key (key : KeyDraft)
  /-- before a value -/
  | value (path : List String) (stack : List Frame)
  /-- before a member of a list, or the end of the list -/
  | element (path : List String) (stack : List Frame)
  /-- after a member of a list -/
  | elementEnd (path : List String) (stack : List Frame)
  /-- before an entry of a braced table, or the end of the table -/
  | member (path : List String) (stack : List Frame)
  /-- in the key of an entry of a braced table -/
  | memberKey (path : List String) (stack : List Frame) (key : KeyDraft)
  /-- after an entry of a braced table -/
  | memberEnd (path : List String) (stack : List Frame)

/-- A text that has been read in part. -/
structure State where
  root : Entries := []
  /-- the header above the present line -/
  header : List String := []
  place : Place := .lineStart

/-- The greatest depth of lists and braced tables in one another. -/
def maxDepth : Nat := 80

namespace State

/-- A value for a path of the present table has been read. -/
def enter (s : State) (path : List String) (value : Value) : Option State :=
  (fun root => { s with root, place := .lineEnd }) <$>
    Entries.atPath false (Entries.insert path value) s.header .headed s.root

/-- A value has been read. -/
def supply (s : State) (path : List String) (value : Value) : List Frame → Option State
  | [] => s.enter path value
  | .list items :: stack => some { s with place := .elementEnd path (.list (value :: items) :: stack) }
  | .table entries key :: stack =>
    (fun entries => { s with place := .memberEnd path (.table entries [] :: stack) }) <$>
      Entries.insert key value .braced entries

/-- A list or a braced table begins. -/
def openFrame (s : State) (frame : Frame) (stack : List Frame) (place : List Frame → Place) :
    Option State :=
  if stack.length < maxDepth then some { s with place := place (frame :: stack) } else none

/-- A token where a value must begin. -/
def beginValue (s : State) (path : List String) (stack : List Frame) (t : Token) : Option State :=
  match t with
  | .text content _ => s.supply path (.text content) stack
  | .bare run => (Value.ofRun? run).bind fun v => s.supply path v stack
  | .openBracket _ => s.openFrame (.list []) stack (.element path)
  | .openBrace => s.openFrame (.table [] []) stack (.member path)
  | _ => none

/-- The innermost container ends. -/
def close (s : State) (path : List String) (t : Token) : List Frame → Option State
  | .list items :: stack =>
    match t with
    | .closeBracket _ => s.supply path (.list items.reverse false) stack
    | _ => none
  | .table entries _ :: stack =>
    match t with
    | .closeBrace => s.supply path (.table .braced entries) stack
    | _ => none
  | [] => none

/-- A token of a key, or the end of the key. -/
def stepKey (s : State) (key : KeyDraft) (place : KeyDraft → Place) (ends : Token → Bool)
    (done : List String → Option State) (t : Token) : Option State :=
  if ends t then key.path?.bind done
  else (fun key => { s with place := place key }) <$> key.step t

/-- A header is complete. -/
def enterHeader (path : List String) (root : Option Entries) : Option State :=
  (fun root => { root, header := path, place := .lineEnd }) <$> root

/-- Whether a token is a closing bracket. -/
def isCloseBracket : Token → Bool
  | .closeBracket _ => true
  | _ => false

/-- The next token. -/
def step (s : State) (t : Token) : Option State :=
  match s.place with
  | .lineStart =>
    match t with
    | .newline => some s
    | .openBracket _ => some { s with place := .header false {} }
    | t => s.stepKey {} .key (fun _ => false) (fun _ => none) t
  | .lineEnd => if t = .newline then some { s with place := .lineStart } else none
  | .header ofTables key =>
    if t = .openBracket true ∧ !ofTables ∧ key.words = [] then
      some { s with place := .header true {} }
    else
      s.stepKey key (.header ofTables) isCloseBracket
        (fun path =>
          if ofTables then some { s with place := .headerEnd path }
          else enterHeader path (Entries.openTable path s.root)) t
  | .headerEnd path =>
    if t = .closeBracket true then enterHeader path (Entries.openMember path s.root) else none
  | .key key =>
    s.stepKey key .key (· = .equals) (fun path => some { s with place := .value path [] }) t
  | .value path stack => s.beginValue path stack t
  | .element path stack =>
    match t with
    | .newline => some s
    | .closeBracket _ => s.close path t stack
    | t => s.beginValue path stack t
  | .elementEnd path stack =>
    match t with
    | .newline => some s
    | .comma => some { s with place := .element path stack }
    | t => s.close path t stack
  | .member path stack =>
    match t with
    | .newline => some s
    | .closeBrace => s.close path t stack
    | t => s.stepKey {} (.memberKey path stack) (fun _ => false) (fun _ => none) t
  | .memberKey path stack key =>
    s.stepKey key (.memberKey path stack) (· = .equals)
      (fun inner =>
        match stack with
        | .table entries _ :: stack =>
          some { s with place := .value path (.table entries inner :: stack) }
        | _ => none) t
  | .memberEnd path stack =>
    match t with
    | .newline => some s
    | .comma => some { s with place := .member path stack }
    | t => s.close path t stack

/-- All tokens that follow. -/
def run (s : State) : List Token → Option State
  | [] => some s
  | t :: ts => (s.step t).bind (run · ts)

/-- The table that a whole text has built. -/
def finish (s : State) : Option Entries :=
  match s.place with
  | .lineStart | .lineEnd => some s.root
  | _ => none

end State

/-- The root table of a TOML text, if the text is well formed. -/
def entriesOf (text : String) : Option Entries := do
  let tokens ← Token.scan text.toList
  let s ← State.run {} tokens
  s.finish

/-- The document of a TOML text. -/
def documentOf (text : String) : Document :=
  match entriesOf text with
  | some entries => { root := (Value.table .headed entries).toNode }
  | none => .unreadable

/-- The schema of a TOML text. -/
def schemaOf (text : String) : Except Complaint Schema :=
  Document.readSchema (documentOf text) .openEnded

end SchemaHeaders.Toml
