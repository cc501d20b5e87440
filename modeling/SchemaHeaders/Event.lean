import SchemaHeaders.Config
import SchemaHeaders.Format
import SchemaHeaders.Generation

/-!
# Events

What a run reports of its course. Each event has a level and a part of the program that it
comes from, by which a log is filtered. `generationEvents` are those of generating headers:
one for each entry that was emitted, and one if the whole schema was accepted.
-/

namespace SchemaHeaders

/-- How much an event matters, the most important first. -/
inductive Level where
  | error
  | warn
  | info
  | debug
  | trace
  deriving DecidableEq

namespace Level

/-- The place of a level in their order. -/
def rank : Level → Nat
  | error => 1
  | warn => 2
  | info => 3
  | debug => 4
  | trace => 5

/-- The name of a level. -/
def name : Level → String
  | error => "ERROR"
  | warn => "WARN"
  | info => "INFO"
  | debug => "DEBUG"
  | trace => "TRACE"

end Level

/-- Something that happened in the course of a run. -/
inductive Event where
  | configResolved (config : Config)
  | loadingSchema (path : PathName) (format : Format)
  | enumEmitted (name : String) (members : Nat)
  | structEmitted (name : String) (fields : Nat) (requires : List String)
  | schemaValidated (enums structs : Nat) (backend : String)
  | creatingDirectory (directory : PathName)
  | leavingSubdirectory (path : PathName)
  | outputCleared (directory : PathName) (removed : Nat)
  | headerWritten (path : PathName)
  | generationComplete (schema : PathName) (enums structs : Nat)
  deriving DecidableEq

namespace Event

/-- The level of an event. -/
def level : Event → Level
  | outputCleared .. => .warn
  | generationComplete .. => .info
  | _ => .debug

/-- The part of the program that an event comes from. -/
def origin : Event → String
  | configResolved .. => "liquidgen"
  | _ => "liquidgen_core"

end Event

/-- The events of enums, up to the first that has no header. -/
def enumEvents (backend : Backend) : List EnumEntry → List Event
  | [] => []
  | e :: es =>
    match emitEnum backend e with
    | .ok unit => .enumEmitted unit.name e.members.length :: enumEvents backend es
    | .error _ => []

/-- The events of structs. -/
def structEvents (structs : List StructEntry) : List Event :=
  structs.map fun s => .structEmitted s.name s.fields.length (requiredTypes s.fields)

/-- The events of generating the headers of a schema. -/
def generationEvents (backend : Backend) (schema : Schema) : List Event :=
  let structs :=
    match emitEnums backend schema.enums with
    | .ok _ => structEvents schema.structs
    | .error _ => []
  let validated :=
    match generate backend schema with
    | .ok g => [.schemaValidated g.enums.length g.structs.length backend.name]
    | .error _ => []
  enumEvents backend schema.enums ++ structs ++ validated

end SchemaHeaders
