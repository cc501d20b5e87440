import SchemaHeaders.Event
import SchemaHeaders.Text.Quoted

/-!
# Logs

`Event.line` is the line of an event in a log, and a `LogFilter` decides which events have
one. A filter is a list of directives, each of which admits events up to a level; of those
that apply to the origin of an event, the one with the longest origin decides.
-/

namespace SchemaHeaders

open Text (digits quoted quotedList quotedPath)

/-! ## Lines -/

/-- A number in a line. -/
def countText (n : Nat) : String := String.ofList (digits n)

/-- A configuration in a line. -/
def Config.line (c : Config) : String :=
  "GeneratorConfig \x7b schema: " ++ quotedPath c.schema.text ++
    ", output_root: " ++ quotedPath c.outputRoot.text ++
    ", enum_dir: " ++ quotedPath c.enumDir.text ++
    ", struct_dir: " ++ quotedPath c.structDir.text ++
    ", backend: " ++ quoted c.backend ++ " \x7d"

/-- The name of a format in a line. -/
def Format.label : Format → String
  | yaml => "Yaml"
  | toml => "Toml"
  | json => "Json"

namespace Event

/-- What an event says. -/
def text : Event → String
  | configResolved config => "resolved configuration config=" ++ config.line
  | loadingSchema path format =>
    "loading schema path=" ++ path.text ++ " format=" ++ format.label
  | enumEmitted name members =>
    "emitted enum name=" ++ name ++ " members=" ++ countText members
  | structEmitted name fields requires =>
    "emitted struct name=" ++ name ++ " fields=" ++ countText fields ++
      " requires=" ++ quotedList requires
  | schemaValidated enums structs backend =>
    "schema validated enums=" ++ countText enums ++ " structs=" ++ countText structs ++
      " backend=" ++ quoted backend
  | creatingDirectory directory => "creating output directory dir=" ++ directory.text
  | leavingSubdirectory path => "leaving subdirectory in place path=" ++ path.text
  | outputCleared directory removed =>
    "cleared previous output dir=" ++ directory.text ++ " removed=" ++ countText removed
  | headerWritten path => "wrote header path=" ++ path.text
  | generationComplete schema enums structs =>
    "generation complete schema=" ++ schema.text ++ " enums=" ++ countText enums ++
      " structs=" ++ countText structs

/-- The line of an event. -/
def line (event : Event) : String := event.level.name ++ " " ++ event.text

end Event

/-! ## Filters -/

/-- What a filter says of events whose origin begins with a text. -/
structure LogDirective where
  origin : String := ""
  /-- the level up to which events are shown, if any are -/
  level : Option Level
  deriving DecidableEq

/-- A filter of events. -/
abbrev LogFilter := List LogDirective

namespace LogDirective

/-- Whether a directive applies to an event. -/
def applies (d : LogDirective) (event : Event) : Bool :=
  d.origin.toList.isPrefixOf event.origin.toList

/-- Whether a directive admits an event. -/
def admits (d : LogDirective) (event : Event) : Bool :=
  match d.level with
  | some level => event.level.rank ≤ level.rank
  | none => false

/-- The level up to which events are shown that a word stands for. -/
def levelOf? (word : List Char) : Option (Option Level) :=
  match String.ofList (word.map Char.toLower) with
  | "off" | "0" => some none
  | "error" | "1" => some (some .error)
  | "warn" | "2" => some (some .warn)
  | "info" | "3" => some (some .info)
  | "debug" | "4" => some (some .debug)
  | "trace" | "5" => some (some .trace)
  | _ => none

/-- Whether a text may be an origin. -/
def isOrigin (cs : List Char) : Bool :=
  cs ≠ [] && cs.all fun c => c.isAlphanum || c == '_' || c == ':' || c == '-'

/-- The directive of a text: a level, an origin, or both with an equals sign between. -/
def ofText? (cs : List Char) : Option LogDirective :=
  match levelOf? cs with
  | some level => some { level }
  | none =>
    let origin := cs.takeWhile (· ≠ '=')
    if isOrigin origin then
      match cs.drop origin.length with
      | [] => some ⟨String.ofList origin, some .trace⟩
      | _ :: word => (levelOf? word).map fun level => ⟨String.ofList origin, level⟩
    else none

end LogDirective

namespace LogFilter

/-- The directive that decides on an event, after the best of those before. -/
def decisive (event : Event) (best : Option LogDirective) : LogFilter → Option LogDirective
  | [] => best
  | d :: ds =>
    if d.applies event ∧ best.all (·.origin.length ≤ d.origin.length) then
      decisive event (some d) ds
    else decisive event best ds

/-- Whether an event is shown. -/
def shows (filter : LogFilter) (event : Event) : Bool :=
  match decisive event none filter with
  | some d => d.admits event
  | none => false

/-- The filter that shows events up to a level. -/
def upTo (level : Level) : LogFilter := [{ level := some level }]

/-- The directives of texts. -/
def ofTexts? : List (List Char) → Option LogFilter
  | [] => some []
  | cs :: rest => do
    let d ← LogDirective.ofText? cs
    let ds ← ofTexts? rest
    return d :: ds

/-- The filter of a text, whose directives are separated by commas. One that has none shows
errors. -/
def ofText? (text : String) : Option LogFilter :=
  let (first, others) := Text.pieces ',' text.toList
  match ofTexts? ((first :: others).filter (· ≠ [])) with
  | some [] => some (upTo .error)
  | result => result

end LogFilter

end SchemaHeaders
