import SchemaHeaders.FileStore

/-!
# Output

Headers are written into directories that hold nothing else: `prepareDir` makes a directory
or removes every entry in it that is no directory, and `writeUnits` then writes one file for
each unit, in order, up to the first that cannot be written.
-/

namespace SchemaHeaders

variable {m : Type → Type} [Monad m] [FileStore m]

/-- The files that a run has written. -/
structure Summary where
  enumFiles : List PathName
  structFiles : List PathName
  deriving DecidableEq

/-- The number of files. -/
def Summary.total (s : Summary) : Nat := s.enumFiles.length + s.structFiles.length

/-! ## Directories -/

/-- Settles that a directory is there after it could not be made for some cause. -/
def acceptDirectory (path : PathName) (cause : IoCause) : m (Except IoCause Unit) := do
  if ← FileStore.isDirectory path then return .ok () else return .error cause

/-- Makes a directory and those above it. The path is given by its components as well, from
the last to the first. -/
def makeFrom : List PathName.Component → PathName → m (Except IoCause Unit)
  | [], _ => return .ok ()
  | _ :: above, path => do
    match ← FileStore.makeDirectory path with
    | .ok () => return .ok ()
    | .error .notFound =>
      match ← makeFrom above (PathName.ofComponents above.reverse) with
      | .ok () =>
        match ← FileStore.makeDirectory path with
        | .ok () => return .ok ()
        | .error cause => acceptDirectory path cause
      | .error cause => return .error cause
    | .error cause => acceptDirectory path cause

/-- Makes a directory and those above it, as far as they are missing. -/
def makeDirectories (path : PathName) : m (Except IoCause Unit) :=
  makeFrom path.components.reverse path

/-- Removes the entries of a directory that are no directories, and counts them. -/
def clear (dir : PathName) : List (String × Bool) → Step m Nat
  | [] => return 0
  | (name, isDirectory) :: entries => do
    let path := dir.join ⟨name⟩
    if isDirectory then
      Step.of (FileStore.note (.leavingSubdirectory path))
      clear dir entries
    else
      Step.on path (FileStore.remove path)
      let removed ← clear dir entries
      return removed + 1

/-- Makes a directory, or clears it if it is there. -/
def prepareDir (dir : PathName) : Step m Unit := do
  if ← Step.of (FileStore.isPresent dir) then
    let entries ← Step.on dir (FileStore.list dir)
    let removed ← clear dir entries
    if removed ≠ 0 then Step.of (FileStore.note (.outputCleared dir removed))
  else
    Step.of (FileStore.note (.creatingDirectory dir))
    Step.on dir (makeDirectories dir)

/-! ## Files -/

/-- The path of the file of a unit. -/
def HeaderUnit.path (unit : HeaderUnit) (dir : PathName) (extension : String) : PathName :=
  dir.join ⟨unit.typeName ++ extension⟩

/-- Writes a file for each unit. -/
def writeEach (dir : PathName) (extension : String) : List HeaderUnit → Step m (List PathName)
  | [] => return []
  | unit :: units => do
    let path := unit.path dir extension
    Step.on path (FileStore.write path unit.code)
    Step.of (FileStore.note (.headerWritten path))
    let paths ← writeEach dir extension units
    return path :: paths

/-- Writes units into a directory that is prepared for them. -/
def writeUnits (dir : PathName) (units : List HeaderUnit) (extension : String) :
    Step m (List PathName) := do
  prepareDir dir
  writeEach dir extension units

/-- Writes the headers of enums, then those of structs, each into a directory of their own. -/
def writeGenerated (generated : Generated) (enumDir structDir : PathName) : Step m Summary := do
  let enumFiles ← writeUnits enumDir generated.enums generated.extension
  let structFiles ← writeUnits structDir generated.structs generated.extension
  return ⟨enumFiles, structFiles⟩

end SchemaHeaders
