import SchemaHeaders.CommandLine.Session

/-!
# The command line

The file store of the real system, and the program: it reads its arguments, carries them out
and shows the report. Events go to the error output as they happen, as far as the filter
shows them.
-/

namespace SchemaHeaders.CommandLine

/-! ## The files of the system -/

/-- The number of an error, which the system may have negated. -/
def numberOf (code : UInt32) : Nat := min code.toNat (-code).toNat

/-- The number and the words that the system has for an error. -/
def systemError? : IO.Error → Option (Nat × String)
  | .alreadyExists _ code words | .invalidArgument _ code words | .permissionDenied _ code words
  | .resourceExhausted _ code words | .inappropriateType _ code words | .noSuchThing _ code words
  | .interrupted _ code words | .noFileOrDirectory _ code words | .otherError code words
  | .resourceBusy code words | .resourceVanished code words | .unsupportedOperation code words
  | .hardwareFault code words | .unsatisfiedConstraints code words
  | .illegalOperation code words | .protocolError code words | .timeExpired code words =>
    some (numberOf code, words)
  | .unexpectedEof | .userError _ => none

/-- The cause that an error of the system is. -/
def causeOf (e : IO.Error) : IoCause :=
  match systemError? e with
  | some (2, _) => .notFound
  | some (17, _) => .alreadyExists
  | some (20, _) => .notADirectory
  | some (21, _) => .isADirectory
  | some (36, _) => .nameTooLong
  | some (40, _) => .tooManyLinks
  | some (code, words) => .other (words ++ " (os error " ++ countText code ++ ")")
  | none => .other (toString e)

/-- A run on the files of the system. -/
abbrev SystemM := ReaderT LogFilter IO

/-- Carries out an operation on a path, which must be one that the system can be given. -/
def attempt {α : Type} (path : PathName) (act : String → IO α) : SystemM (Except IoCause α) :=
  if path.text.toList.contains '\x00' then return .error .nulInName
  else
    try return .ok (← act path.text)
    catch e => return .error (causeOf e)

/-- The kind of what a path leads to. -/
def kindAt (path : PathName) : SystemM (Option IO.FS.FileType) := do
  match ← attempt path fun p => do (← IO.FS.realPath p).metadata with
  | .ok data => return some data.type
  | .error _ => return none

/-- The names in a directory, and which of them are directories themselves. -/
def entriesOf (p : String) : IO (List (String × Bool)) := do
  let entries ← (← IO.FS.realPath p).readDir
  entries.toList.mapM fun e => do
    return (e.fileName, (← e.path.symlinkMetadata).type == .dir)

instance : FileStore SystemM where
  isPresent path := return (← kindAt path).isSome
  isDirectory path := return (← kindAt path) == some .dir
  isFile path := return (← kindAt path) == some .file
  list path := attempt path entriesOf
  read path := do
    match ← attempt path fun p => IO.FS.readBinFile p with
    | .ok octets =>
      match String.fromUTF8? octets with
      | some text => return .ok text
      | none => return .error .notText
    | .error cause => return .error cause
  makeDirectory path := attempt path fun p => IO.FS.createDir p
  remove path := attempt path fun p => IO.FS.removeFile p
  write path text := attempt path fun p => IO.FS.writeFile p text
  note event := do if (← read).shows event then IO.eprintln event.line

/-! ## The program -/

/-- Carries out a request, and gives the exit code. -/
def serve : Request → IO Nat
  | .rejected => do
    IO.eprintln "error: the arguments make no sense"
    return rejectedCode
  | .version => do
    IO.print versionText
    return 0
  | .run options => do
    let filter := options.logFilter (← IO.getEnv "RUST_LOG")
    let report ← (execute options : SystemM Report).run filter
    IO.print report.output
    match report.trouble with
    | some trouble => IO.eprint trouble.text
    | none => pure ()
    return report.exitCode

end SchemaHeaders.CommandLine

/-- The program. -/
def main (arguments : List String) : IO UInt32 := do
  return UInt32.ofNat (← SchemaHeaders.CommandLine.serve (.ofArguments arguments))
