import SchemaHeaders.Output

/-!
# Runs

`check` reads the schema of a configuration and generates its headers, without writing
anything. `run` then writes them: nothing is written, and nothing removed, before the whole
schema has been accepted.
-/

namespace SchemaHeaders

variable {m : Type → Type} [Monad m] [FileStore m]

/-- Takes note of events, in order. -/
def noteAll : List Event → m Unit
  | [] => return ()
  | event :: events => do
    FileStore.note event
    noteAll events

/-- The schema in a file. -/
def loadSchema (path : PathName) : Step m Schema := do
  let format ← Step.decided (Format.ofPath path)
  let text ← Step.on path (FileStore.read path)
  Step.of (FileStore.note (.loadingSchema path format))
  Step.decided (format.parse path.text text)

/-- The configuration in a file. -/
def loadConfig (path : PathName) : Step m Config := do
  let text ← Step.on path (FileStore.read path)
  Step.decided (Config.ofToml text)

/-- The headers that a configuration asks for. -/
def check (config : Config) : Step m Generated := do
  Step.decided config.validate
  let backend ← Step.decided (Backend.find config.backend)
  let schema ← loadSchema config.schema
  Step.of (noteAll (generationEvents backend schema))
  Step.decided (generate backend schema)

/-- Writes the headers that a configuration asks for. -/
def run (config : Config) : Step m Summary := do
  let generated ← check config
  let summary ← writeGenerated generated config.enumOutputDir config.structOutputDir
  Step.of (FileStore.note
    (.generationComplete config.schema summary.enumFiles.length summary.structFiles.length))
  return summary

end SchemaHeaders
