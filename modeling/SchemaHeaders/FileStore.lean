import SchemaHeaders.Event
import SchemaHeaders.FileTree

/-!
# File stores

A run works on a file store: a monad that reads and changes files, and takes note of events
(`FileStore`). `World` is a file tree with the events so far, and the state monad over it is
the file store in which runs are reasoned about.
-/

namespace SchemaHeaders

/-- A monad that works on files. -/
class FileStore (m : Type → Type) where
  /-- whether a path leads to anything -/
  isPresent : PathName → m Bool
  isDirectory : PathName → m Bool
  isFile : PathName → m Bool
  /-- the names in a directory, and which of them are directories themselves -/
  list : PathName → m (Except IoCause (List (String × Bool)))
  /-- the text of a file -/
  read : PathName → m (Except IoCause String)
  makeDirectory : PathName → m (Except IoCause Unit)
  /-- removes an entry that is no directory -/
  remove : PathName → m (Except IoCause Unit)
  /-- writes a file, a new one if there is none -/
  write : PathName → String → m (Except IoCause Unit)
  /-- takes note of an event -/
  note : Event → m Unit

/-- A file tree, and the events so far. -/
structure World where
  tree : FileTree
  events : List Event := []

namespace World

/-- Puts a changed tree in place, unless the change failed. -/
def commit (change : FileTree → Except IoCause FileTree) :
    StateM World (Except IoCause Unit) := do
  let world ← get
  match change world.tree with
  | .ok tree =>
    set { world with tree }
    return .ok ()
  | .error cause => return .error cause

instance : FileStore (StateM World) where
  isPresent path := return (← get).tree.isPresent path
  isDirectory path := return (← get).tree.isDirectory path
  isFile path := return (← get).tree.isFile path
  list path := return (← get).tree.list path
  read path := return (← get).tree.read path
  makeDirectory path := commit (·.makeDirectory path)
  remove path := commit (·.remove path)
  write path text := commit (·.write path (.text text))
  note event := modify fun world => { world with events := world.events ++ [event] }

end World

/-- A step of a run, which may fail. -/
abbrev Step (m : Type → Type) := ExceptT Failure m

namespace Step

variable {m : Type → Type} [Monad m]

/-- A step that does not fail. -/
def of {α : Type} (x : m α) : Step m α := ExceptT.lift x

/-- An operation on files, of which a failure is one of the path. -/
def on {α : Type} (path : PathName) (x : m (Except IoCause α)) : Step m α :=
  ExceptT.mk ((fun r => r.mapError (Failure.io path)) <$> x)

/-- What has been decided already. -/
def decided {α : Type} (x : Except Failure α) : Step m α := ExceptT.mk (pure x)

end Step

end SchemaHeaders
