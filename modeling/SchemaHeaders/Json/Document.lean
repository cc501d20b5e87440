import SchemaHeaders.Document.Types
import SchemaHeaders.Json.Token

/-!
# JSON documents

`ofTokens` builds the tree of a list of tokens with a stack of the containers that are still
open, and `schemaOf` reads the schema of a JSON text. A record may be written as a list of
its values, none beyond the last field.
-/

namespace SchemaHeaders.Json

open Document (Node)

/-- A container that is still open, its parts newest first. -/
inductive Frame where
  | list (items : List Node)
  /-- a table, with a key if the value of that key has not been read -/
  | table (entries : List (Node × Node)) (key : Option Node)

/-- What may follow. -/
inductive Expect where
  | value
  | valueOrClose
  | key
  | keyOrClose
  | colon
  | commaOrClose
  deriving DecidableEq

/-- What a token leads to. -/
inductive Move where
  /-- the text goes on -/
  | on (stack : List Frame) (expect : Expect)
  /-- the root has been read -/
  | root (node : Node)
  /-- the token may not stand here -/
  | stuck

/-- A value has been read. -/
def supply (stack : List Frame) (node : Node) : Move :=
  match stack with
  | [] => .root node
  | .list items :: stack => .on (.list (node :: items) :: stack) .commaOrClose
  | .table entries (some key) :: stack => .on (.table ((key, node) :: entries) none :: stack) .commaOrClose
  | .table _ none :: _ => .stuck

/-- The node of a token that is a value of its own. -/
def scalar? : Token → Option Node
  | .null => some (.scalar { absent := true })
  | .truth _ => some (.scalar {})
  | .number none => some (.scalar {})
  | .number (some z) => some (.ofInt z)
  | .text content => some (.scalar { text := content })
  | _ => none

/-- A token where a value may begin. -/
def beginValue (stack : List Frame) (t : Token) : Move :=
  match t with
  | .openBracket => .on (.list [] :: stack) .valueOrClose
  | .openBrace => .on (.table [] none :: stack) .keyOrClose
  | t =>
    match scalar? t with
    | some node => supply stack node
    | none => .stuck

/-- A token where a key may stand. -/
def beginKey (stack : List Frame) (t : Token) : Move :=
  match t, stack with
  | .text content, .table entries none :: stack =>
    .on (.table entries (some (.scalar { text := content })) :: stack) .colon
  | _, _ => .stuck

/-- A token where the innermost container may end. -/
def close (stack : List Frame) (t : Token) : Move :=
  match t, stack with
  | .closeBracket, .list items :: stack => supply stack (.ofList items.reverse)
  | .closeBrace, .table entries none :: stack => supply stack (.ofEntries entries.reverse)
  | _, _ => .stuck

/-- What a token leads to. -/
def advance (stack : List Frame) (expect : Expect) (t : Token) : Move :=
  match expect with
  | .value => beginValue stack t
  | .valueOrClose => if t = .closeBracket then close stack t else beginValue stack t
  | .key => beginKey stack t
  | .keyOrClose => if t = .closeBrace then close stack t else beginKey stack t
  | .colon => if t = .colon then .on stack .value else .stuck
  | .commaOrClose =>
    if t = .comma then
      match stack with
      | .list _ :: _ => .on stack .value
      | .table _ _ :: _ => .on stack .key
      | [] => .stuck
    else close stack t

/-- The root as far as it has been read, around what was being read last. -/
def unwind : List Frame → Option Node → Node
  | [], inner => inner.getD .unreadable
  | .list items :: stack, inner =>
    unwind stack (some (.list (inner.toList ++ items).reverse false))
  | .table entries none :: stack, _ => unwind stack (some (.table entries.reverse false))
  | .table entries (some key) :: stack, inner =>
    unwind stack (some (.table ((key, inner.getD .unreadable) :: entries).reverse false))

/-- The document of tokens that follow those of a stack, where `whole` says whether they
make up the rest of the text. -/
def ofTokensFrom (whole : Bool) : List Frame → Expect → List Token → Document
  | stack, _, [] => { root := unwind stack none }
  | stack, expect, t :: ts =>
    match advance stack expect t with
    | .on stack expect => ofTokensFrom whole stack expect ts
    | .root node => { root := node, ended := ts.isEmpty && whole }
    | .stuck => { root := unwind stack none }

/-- The document of the tokens of a text. -/
def ofTokens (tokens : List Token × Bool) : Document :=
  ofTokensFrom tokens.2 [] .value tokens.1

/-- The schema of a JSON text. -/
def schemaOf (text : String) : Except Complaint Schema :=
  Document.readSchema (ofTokens (Token.scan text.toList)) .exact

end SchemaHeaders.Json
