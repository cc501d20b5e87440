import SchemaHeaders.Text.Split

/-!
# Path names

A path keeps the spelling that it was given. What the spelling says is its list of
components (`PathName.components`): repeated and trailing slashes say nothing, and neither
does a `.` that does not begin a relative path; `..` is kept. Two spellings are of the same
path if their components agree (`PathName.SameAs`).
-/

namespace SchemaHeaders

/-- A path as it is spelled. -/
structure PathName where
  text : String
  deriving DecidableEq

namespace PathName

/-- A step of a path. -/
inductive Component where
  /-- the root, where an absolute path begins -/
  | root
  /-- the `.` that begins a relative path -/
  | here
  /-- the parent directory -/
  | up
  /-- the entry of that name -/
  | name (text : String)
  deriving DecidableEq

/-- Whether a path begins at the root. -/
def isAbsolute (p : PathName) : Bool := p.text.toList.head? == some '/'

/-- Whether a path ends in a slash. -/
def endsInSlash (p : PathName) : Bool := p.text.toList.getLast? == some '/'

/-- What a piece between slashes says after the first: nothing if it is empty or `.`. -/
def component? (piece : List Char) : Option Component :=
  if piece = [] ∨ piece = ['.'] then none
  else if piece = ['.', '.'] then some .up
  else some (.name (String.ofList piece))

/-- What a path begins with: the root, a leading `.`, or its first name. -/
def leading (p : PathName) (first : List Char) : List Component :=
  if p.isAbsolute then [.root]
  else if first = ['.'] then [.here]
  else (component? first).toList

/-- The components of a path. -/
def components (p : PathName) : List Component :=
  let (first, others) := Text.pieces '/' p.text.toList
  p.leading first ++ others.filterMap component?

/-- Whether two paths have the same components. -/
def SameAs (p q : PathName) : Prop := p.components = q.components

instance (p q : PathName) : Decidable (p.SameAs q) :=
  inferInstanceAs (Decidable (p.components = q.components))

/-- The path `q` seen from the directory `p`: an absolute path stands for itself. -/
def join (p q : PathName) : PathName :=
  if q.isAbsolute ∨ p.text = "" then q
  else if p.endsInSlash then ⟨p.text ++ q.text⟩
  else ⟨p.text ++ "/" ++ q.text⟩

/-- The text of a component; the root has none, since a slash follows it. -/
def Component.text : Component → String
  | root => ""
  | here => "."
  | up => ".."
  | name text => text

/-- A path with given components. -/
def ofComponents (components : List Component) : PathName :=
  if components = [.root] then ⟨"/"⟩ else ⟨String.intercalate "/" (components.map (·.text))⟩

/-- The name of the entry that a path leads to, if its last component is a name. -/
def fileName? (p : PathName) : Option String :=
  match p.components.getLast? with
  | some (.name text) => some text
  | _ => none

/-- What follows the last dot of a text that has characters before that dot. -/
def extensionOf? (name : List Char) : Option (List Char) :=
  let (first, others) := Text.pieces '.' name
  match others.getLast? with
  | none => none
  | some ext => if first = [] ∧ others.length = 1 then none else some ext

/-- The extension of a path: what follows the last dot of its file name, unless that dot
begins the name. -/
def extension? (p : PathName) : Option String :=
  p.fileName?.bind fun name => (extensionOf? name.toList).map String.ofList

end PathName

end SchemaHeaders
