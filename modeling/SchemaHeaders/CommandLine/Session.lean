import SchemaHeaders.CommandLine.Arguments
import SchemaHeaders.CommandLine.Log
import SchemaHeaders.Pipeline

/-!
# Sessions

`execute` carries out what the options of the command line ask for. The settings come from a
configuration file and then from the options (`resolve`). What goes wrong is a `Trouble`: a
failure, and what was being done when it happened.
-/

namespace SchemaHeaders.CommandLine

variable {m : Type → Type} [Monad m] [FileStore m]

/-! ## Troubles -/

/-- A failure, and what was being done. -/
structure Trouble where
  context : String
  failure : Failure
  deriving DecidableEq

/-- A text whose lines but the first are indented. -/
def indented (margin : List Char) (text : String) : String :=
  String.ofList (text.toList.flatMap fun c => if c = '\n' then '\n' :: margin else [c])

namespace Trouble

/-- What stands above the causes. -/
def heading (t : Trouble) : String := "Error: " ++ t.context ++ "\n\nCaused by:\n"

/-- The causes: a failure, and behind one of a file what the system says. -/
def causes (t : Trouble) : String :=
  match t.failure with
  | .io _ cause =>
    let margin := List.replicate 7 ' '
    "    0: " ++ indented margin t.failure.message ++ "\n" ++
      "    1: " ++ indented margin cause.message ++ "\n"
  | failure => "    " ++ indented (List.replicate 4 ' ') failure.message ++ "\n"

/-- The message about a trouble. -/
def text (t : Trouble) : String := t.heading ++ t.causes

end Trouble

/-- A result, or a failure in a context. -/
def within {α : Type} (context : String) (x : Step m α) : m (Except Trouble α) :=
  (fun r => r.mapError (Trouble.mk context)) <$> x.run

/-! ## Settings -/

/-- The configuration file that is read if no other is named. -/
def defaultConfigFile : PathName := ⟨"liquidgen.toml"⟩

/-- The configuration in a file. -/
def configFrom (path : PathName) : m (Except Trouble Config) :=
  within ("Failed to load config: " ++ path.text) (loadConfig path)

/-- The configuration before options are taken into account. -/
def baseConfig (options : Options) : m (Except Trouble Config) := do
  match options.config with
  | some path => configFrom path
  | none =>
    if ← FileStore.isFile defaultConfigFile then configFrom defaultConfigFile
    else return .ok {}

/-- A configuration in which options take precedence. -/
def Options.apply (options : Options) (config : Config) : Config :=
  { config with
    schema := options.schema.getD config.schema
    outputRoot := options.output.getD config.outputRoot }

/-- The configuration of a run. -/
def resolve (options : Options) : m (Except Trouble Config) := do
  match ← baseConfig options with
  | .error trouble => return .error trouble
  | .ok config =>
    let config := options.apply config
    FileStore.note (.configResolved config)
    return .ok config

/-! ## Commands -/

/-- What a run says, and the trouble that ended it, if any did. -/
structure Report where
  output : String
  trouble : Option Trouble := none
  deriving DecidableEq

/-- The report of a result after a first line. -/
def reportOf {α : Type} (opening : String) (closing : α → String) : Except Trouble α → Report
  | .ok x => ⟨opening ++ closing x, none⟩
  | .error trouble => ⟨opening, some trouble⟩

/-- Writes headers. -/
def generateHeaders (config : Config) : m Report := do
  let result ← within ("Generation failed for " ++ config.schema.text) (run config)
  return reportOf ("Generating headers from: " ++ config.schema.text ++ "\n")
    (fun s =>
      "Wrote " ++ countText s.enumFiles.length ++ " enum header(s) to " ++
        config.enumOutputDir.text ++ "\n" ++
      "Wrote " ++ countText s.structFiles.length ++ " struct header(s) to " ++
        config.structOutputDir.text ++ "\n") result

/-- Checks a schema. -/
def checkSchema (config : Config) : m Report := do
  let result ← within ("Schema check failed for " ++ config.schema.text) (check config)
  return reportOf ("Checking schema: " ++ config.schema.text ++ "\n")
    (fun g =>
      "Schema is valid: " ++ countText g.enums.length ++ " enum(s), " ++
        countText g.structs.length ++ " struct(s)\n") result

/-- Carries out what options ask for. -/
def execute (options : Options) : m Report := do
  match ← resolve options with
  | .error trouble => return ⟨"", some trouble⟩
  | .ok config =>
    match options.command with
    | .generate => generateHeaders config
    | .check => checkSchema config

/-- The exit code of a run. -/
def Report.exitCode (r : Report) : Nat := if r.trouble.isSome then 1 else 0

/-- The exit code if the arguments make no sense. -/
def rejectedCode : Nat := 2

/-- What is shown for the version. -/
def versionText : String := "liquidgen 0.3.0\n"

/-- The filter of the events that options show, unless a text says otherwise. -/
def Options.logFilter (options : Options) (text : Option String) : LogFilter :=
  let level := if options.verbose then .debug else if options.quiet then .warn else .info
  match text.bind LogFilter.ofText? with
  | some filter => filter
  | none => .upTo level

end SchemaHeaders.CommandLine
