import SchemaHeaders.Failure
import SchemaHeaders.Text.Utf8

/-!
# File trees

A file tree says which item is at which location. A location is the list of the names that
lead to it, from the entry itself up to the root, so that the parent of an entry is the tail
of its location; the root is a directory that is always there.

A path is walked piece by piece (`FileTree.walk`): a link on the way is replaced by the path
it holds, and the walk gives up after more links than `linkLimit`. It leads to a `Spot`: an
item, or a name that is free in a directory. The operations of the tree are those of files
and directories in general, with the cause of each failure.
-/

namespace SchemaHeaders

/-! ## Items -/

/-- What a file holds. -/
inductive Content where
  | text (text : String)
  /-- octets that are no text -/
  | binary (octets : List UInt8)
  deriving DecidableEq

namespace Content

/-- The content of octets. -/
def ofOctets (octets : List UInt8) : Content :=
  match Text.text? octets with
  | some s => text s
  | none => binary octets

/-- The text of a content, with marks for what is no text. -/
def shown : Content → String
  | text s => s
  | binary octets => Text.shown octets

end Content

/-- An item of a file tree. -/
inductive Item where
  | directory
  | file (content : Content)
  /-- a link to what is at another path -/
  | link (target : PathName)
  deriving DecidableEq

/-- The names that lead to an entry, from the entry up to the root. -/
abbrev Location := List String

/-- A file tree, seen from one of its directories. -/
structure FileTree where
  entries : List (Location × Item) := []
  /-- the directory that relative paths begin at -/
  current : Location := []

/-- Where a path leads. -/
inductive Spot where
  /-- to an item -/
  | found (location : Location) (item : Item)
  /-- to a name that is free in a directory -/
  | vacant (parent : Location) (name : String)
  deriving DecidableEq

namespace FileTree

/-! ## Entries -/

/-- The item at a location. -/
def item? (tree : FileTree) : Location → Option Item
  | [] => some .directory
  | location => tree.entries.lookup location

/-- The tree without what is at a location. -/
def erase (tree : FileTree) (location : Location) : FileTree :=
  { tree with entries := tree.entries.filter (·.1 ≠ location) }

/-- The tree with an item at a location. -/
def set (tree : FileTree) (location : Location) (item : Item) : FileTree :=
  { tree with entries := (location, item) :: (tree.erase location).entries }

/-- The name of an entry of a directory. -/
def nameIn? (directory : Location) : Location → Option String
  | [] => none
  | name :: parent => if parent = directory then some name else none

/-- The names and items in a directory. -/
def children (tree : FileTree) (directory : Location) : List (String × Item) :=
  tree.entries.filterMap fun (location, item) => (nameIn? directory location).map (·, item)

/-! ## Paths -/

/-- The greatest number of octets of a name. -/
def nameLimit : Nat := 255

/-- A number of octets that no path has. -/
def pathLimit : Nat := 4096

/-- The greatest number of links on the way of a path. -/
def linkLimit : Nat := 40

/-- The pieces of a path between slashes. -/
def piecesOf (path : PathName) : List (List Char) :=
  let (first, others) := Text.pieces '/' path.text.toList
  first :: others

/-- Walks pieces of a path from a directory. At a link, `follow` goes on with the pieces of
the link and those after it; the last piece is followed only if `final` says so. -/
def walkPieces (tree : FileTree) (final : Bool)
    (follow : Location → List (List Char) → Except IoCause Spot) :
    Location → List (List Char) → Except IoCause Spot
  | directory, [] => .ok (.found directory .directory)
  | directory, piece :: pieces =>
    if piece = [] ∨ piece = ['.'] then tree.walkPieces final follow directory pieces
    else if piece = ['.', '.'] then tree.walkPieces final follow directory.tail pieces
    else
      let name := String.ofList piece
      let location := name :: directory
      if nameLimit < name.utf8ByteSize then .error .nameTooLong
      else
        match tree.item? location with
        | none => if pieces.all (· == []) then .ok (.vacant directory name) else .error .notFound
        | some .directory => tree.walkPieces final follow location pieces
        | some (.file content) =>
          if pieces = [] then .ok (.found location (.file content)) else .error .notADirectory
        | some (.link target) =>
          if pieces = [] ∧ !final then .ok (.found location (.link target))
          else
            follow (if target.isAbsolute then [] else directory) (piecesOf target ++ pieces)

/-- Walks pieces of a path from a directory, through fewer links than a given number. -/
def walk (tree : FileTree) (final : Bool) :
    Nat → Location → List (List Char) → Except IoCause Spot
  | 0, _, _ => .error .tooManyLinks
  | n + 1, directory, pieces => tree.walkPieces final (tree.walk final n) directory pieces

/-- Why a path cannot be walked at all. -/
def fault? (path : PathName) : Option IoCause :=
  if path.text.toList.contains '\x00' then some .nulInName
  else if path.text = "" then some .notFound
  else if pathLimit ≤ path.text.utf8ByteSize then some .nameTooLong
  else none

/-- Where pieces of a path lead. -/
def reach (tree : FileTree) (final : Bool) (path : PathName) (pieces : List (List Char)) :
    Except IoCause Spot :=
  match fault? path with
  | some cause => .error cause
  | none =>
    tree.walk final (linkLimit + 1) (if path.isAbsolute then [] else tree.current) pieces

/-- Where a path leads. -/
def locate (tree : FileTree) (path : PathName) : Except IoCause Spot :=
  tree.reach true path (piecesOf path)

/-- The entry that a path names, itself if it is a link. Slashes at the end do not count. -/
def locateEntry (tree : FileTree) (path : PathName) : Except IoCause Spot :=
  tree.reach false path ((piecesOf path).reverse.dropWhile (· == [])).reverse

/-! ## Questions -/

/-- The item that a path leads to. -/
def itemAt? (tree : FileTree) (path : PathName) : Option Item :=
  match tree.locate path with
  | .ok (.found _ item) => some item
  | _ => none

/-- Whether a path leads to an item. -/
def isPresent (tree : FileTree) (path : PathName) : Bool := (tree.itemAt? path).isSome

/-- Whether a path leads to a directory. -/
def isDirectory (tree : FileTree) (path : PathName) : Bool :=
  tree.itemAt? path == some .directory

/-- Whether a path leads to a file. -/
def isFile (tree : FileTree) (path : PathName) : Bool :=
  match tree.itemAt? path with
  | some (.file _) => true
  | _ => false

/-- The names in a directory, and which of them are directories themselves. -/
def list (tree : FileTree) (path : PathName) : Except IoCause (List (String × Bool)) :=
  match tree.locate path with
  | .error cause => .error cause
  | .ok (.found location .directory) =>
    .ok ((tree.children location).map fun (name, item) => (name, item == .directory))
  | .ok (.found _ _) => .error .notADirectory
  | .ok (.vacant _ _) => .error .notFound

/-- The text of a file. -/
def read (tree : FileTree) (path : PathName) : Except IoCause String :=
  match tree.locate path with
  | .error cause => .error cause
  | .ok (.found _ (.file (.text text))) => .ok text
  | .ok (.found _ (.file (.binary _))) => .error .notText
  | .ok (.found _ .directory) => .error .isADirectory
  | .ok (.found _ (.link _)) => .error .tooManyLinks
  | .ok (.vacant _ _) => .error .notFound

/-! ## Changes -/

/-- Makes a new entry. -/
def make (tree : FileTree) (path : PathName) (item : Item) : Except IoCause FileTree :=
  match tree.locateEntry path with
  | .error cause => .error cause
  | .ok (.found _ _) => .error .alreadyExists
  | .ok (.vacant parent name) => .ok (tree.set (name :: parent) item)

/-- Makes a directory. -/
def makeDirectory (tree : FileTree) (path : PathName) : Except IoCause FileTree :=
  tree.make path .directory

/-- Removes an entry that is no directory. -/
def remove (tree : FileTree) (path : PathName) : Except IoCause FileTree :=
  match tree.locateEntry path with
  | .error cause => .error cause
  | .ok (.found _ .directory) => .error .isADirectory
  | .ok (.found location _) => .ok (tree.erase location)
  | .ok (.vacant _ _) => .error .notFound

/-- Writes a file, a new one if there is none. The name of a directory cannot be written. -/
def write (tree : FileTree) (path : PathName) (content : Content) : Except IoCause FileTree :=
  if path.endsInSlash then
    match tree.locateEntry path with
    | .error cause => .error cause
    | .ok _ => .error .isADirectory
  else
    match tree.locate path with
    | .error cause => .error cause
    | .ok (.found _ .directory) => .error .isADirectory
    | .ok (.found location _) => .ok (tree.set location (.file content))
    | .ok (.vacant parent name) => .ok (tree.set (name :: parent) (.file content))

/-! ## Views -/

/-- The names from a directory down to a location below it. -/
def namesBelow? (directory : Location) : Location → Option (List String)
  | [] => none
  | name :: parent =>
    if parent = directory then some [name]
    else (namesBelow? directory parent).map (· ++ [name])

/-- All items below a directory, with the names that lead to them. -/
def below (tree : FileTree) (directory : Location) : List (List String × Item) :=
  tree.entries.filterMap fun (location, item) => (namesBelow? directory location).map (·, item)

end FileTree

end SchemaHeaders
