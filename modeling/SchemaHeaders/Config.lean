import SchemaHeaders.Failure
import SchemaHeaders.Toml.Document

/-!
# Configurations

A configuration says which schema is read and where its headers go. Each setting has a
default, and `Config.ofToml` takes what a TOML text says otherwise, with no key beside the
settings. Since a directory is cleared before it is written to, `Config.validate` refuses
one directory for both kinds of headers.
-/

namespace SchemaHeaders

/-- The settings of a run. -/
structure Config where
  schema : PathName := ⟨"./LiquidCAN.yaml"⟩
  /-- the directory that the other two are seen from -/
  outputRoot : PathName := ⟨"./Cpp-Implementation"⟩
  enumDir : PathName := ⟨"Infrastructure"⟩
  structDir : PathName := ⟨"Model"⟩
  backend : String := "cpp"
  deriving DecidableEq

namespace Config

/-- The directory of the headers of enums. -/
def enumOutputDir (config : Config) : PathName := config.outputRoot.join config.enumDir

/-- The directory of the headers of structs. -/
def structOutputDir (config : Config) : PathName := config.outputRoot.join config.structDir

/-- Refuses a configuration that has one directory for both kinds of headers, or names no
backend. -/
def validate (config : Config) : Except Failure Unit :=
  if config.enumOutputDir.SameAs config.structOutputDir then
    .error (.config (.sharedDirectory config.enumOutputDir))
  else if config.backend = "" then .error (.config .emptyBackend)
  else .ok ()

/-! ## Settings in documents -/

open Document

/-- What has been read of a configuration. -/
structure Draft where
  schema : Option PathName := none
  outputRoot : Option PathName := none
  enumDir : Option PathName := none
  structDir : Option PathName := none
  backend : Option String := none

/-- A path. -/
def readPath (doc : Document) (node : Node) : Except Complaint PathName :=
  PathName.mk <$> readText doc node

/-- A draft with one more setting. -/
def Draft.put (doc : Document) (key : String) (node : Node) (d : Draft) :
    Except Complaint Draft :=
  match key with
  | "schema" => fill key d.schema (readPath doc node) fun x => { d with schema := some x }
  | "output_root" =>
    fill key d.outputRoot (readPath doc node) fun x => { d with outputRoot := some x }
  | "enum_dir" => fill key d.enumDir (readPath doc node) fun x => { d with enumDir := some x }
  | "struct_dir" =>
    fill key d.structDir (readPath doc node) fun x => { d with structDir := some x }
  | "backend" => fill key d.backend (readText doc node) fun x => { d with backend := some x }
  | _ => .error (.unknownField key)

/-- The configuration of a draft, with defaults for what it lacks. -/
def Draft.finish (d : Draft) : Config :=
  let defaults : Config := {}
  { schema := d.schema.getD defaults.schema
    outputRoot := d.outputRoot.getD defaults.outputRoot
    enumDir := d.enumDir.getD defaults.enumDir
    structDir := d.structDir.getD defaults.structDir
    backend := d.backend.getD defaults.backend }

/-- The layout of a configuration. -/
def layout (doc : Document) : Layout Draft Config where
  start := {}
  put key node d := some (d.put doc key node)
  finish d := .ok d.finish
  ofItems _ := .error Complaint.malformed

/-- The configuration of a TOML text. -/
def ofToml (text : String) : Except Failure Config :=
  let doc := Toml.documentOf text
  (readRecord doc .refused (layout doc) doc.root).mapError fun c => .config (.document c)

end Config

end SchemaHeaders
