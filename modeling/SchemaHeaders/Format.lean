import SchemaHeaders.Failure
import SchemaHeaders.Json.Document
import SchemaHeaders.Toml.Document
import SchemaHeaders.Yaml.Document

/-!
# Document formats

A schema is written in one of three formats, and the extension of a file says which.
`Format.parse` reads a schema from a text of a format; a failure names the source of the
text, which is the format itself if the text does not come from a file.
-/

namespace SchemaHeaders

/-- A format of schema documents. -/
inductive Format where
  | yaml
  | toml
  | json
  deriving DecidableEq

namespace Format

/-- The name of a format. -/
def name : Format → String
  | yaml => "yaml"
  | toml => "toml"
  | json => "json"

/-- The format of files with an extension, in upper or lower case. -/
def ofExtension? (extension : String) : Option Format :=
  match String.ofList (extension.toList.map Char.toLower) with
  | "yaml" | "yml" => some yaml
  | "toml" => some toml
  | "json" => some json
  | _ => none

/-- The format of a file. -/
def ofPath (path : PathName) : Except Failure Format :=
  match path.extension?.bind ofExtension? with
  | some format => .ok format
  | none => .error (.unsupportedFormat path.text)

/-- The source of a text that does not come from a file. -/
def source (format : Format) : String := "<" ++ format.name ++ ">"

/-- The schema of a text. -/
def read (format : Format) (text : String) : Except Complaint Schema :=
  match format with
  | yaml => Yaml.schemaOf text
  | toml => Toml.schemaOf text
  | json => Json.schemaOf text

/-- The schema of a text from a source. -/
def parse (format : Format) (source text : String) : Except Failure Schema :=
  (format.read text).mapError (.parse source)

end Format

end SchemaHeaders
