import SchemaHeaders.Format
import SchemaHeaders.Generation
import SchemaHeaders.Proofs.TomlText
import SchemaHeaders.Proofs.YamlText

/-!
# One schema in three formats

A schema whose texts are plain is the same in every format: its line of JSON is read as it, as JSON
and as YAML, and so are its two lines of TOML (`parse_formats`). The same text of any integers is
read in each format exactly if they are those of a schema (`parse_eq_ok_iff`).
-/

namespace SchemaHeaders

/-- The text of a wide schema in a format. -/
def WideSchema.text (w : WideSchema) : Format → String
  | .toml => w.tomlText
  | .json | .yaml => w.jsonText

/-- A wide schema of plain texts is parsed, in every format, exactly as the schema of its integers,
if there is one. -/
theorem parse_eq_ok_iff {w : WideSchema} (h : ∀ s ∈ w.texts, ∀ c ∈ s.toList, IsPlain c)
    (format : Format) (source : String) (schema : Schema) :
    format.parse source (w.text format) = .ok schema ↔ schema.wide = w := by
  have hread : format.read (w.text format) = .ok schema ↔ schema.wide = w := by
    cases format with
    | yaml => exact Yaml.schemaOf_eq_ok_iff h schema
    | toml => exact Toml.schemaOf_eq_ok_iff h schema
    | json => exact Json.schemaOf_eq_ok_iff h schema
  rw [← hread, Format.parse]
  cases format.read (w.text format) with
  | error complaint => simp [Except.mapError]
  | ok read => simp [Except.mapError]

/-- The line of JSON of a schema is parsed as the schema, as JSON and as YAML, and so are its lines of
TOML, whatever the source. So the same is generated from all of them. -/
theorem parse_formats {schema : Schema} (h : ∀ s ∈ schema.texts, ∀ c ∈ s.toList, IsPlain c)
    (source : String) (backend : Backend) :
    (Format.yaml.parse source schema.jsonText = .ok schema ∧
      Format.json.parse source schema.jsonText = .ok schema ∧
      Format.toml.parse source schema.tomlText = .ok schema) ∧
    (Format.yaml.parse source schema.jsonText >>= generate backend) = generate backend schema ∧
    (Format.json.parse source schema.jsonText >>= generate backend) = generate backend schema ∧
    (Format.toml.parse source schema.tomlText >>= generate backend) = generate backend schema := by
  rw [← schema.texts_wide] at h
  have hparse (format : Format) : format.parse source (schema.wide.text format) = .ok schema :=
    (parse_eq_ok_iff h format source schema).mpr rfl
  have hyaml : Format.yaml.parse source schema.jsonText = .ok schema :=
    schema.jsonText_wide ▸ hparse .yaml
  have hjson : Format.json.parse source schema.jsonText = .ok schema :=
    schema.jsonText_wide ▸ hparse .json
  have htoml : Format.toml.parse source schema.tomlText = .ok schema :=
    schema.tomlText_wide ▸ hparse .toml
  exact ⟨⟨hyaml, hjson, htoml⟩, by rw [hyaml]; rfl, by rw [hjson]; rfl, by rw [htoml]; rfl⟩

/-- A schema of names that a format might take for something else. -/
def wordy : Schema :=
  ⟨[⟨"null", some "~", [⟨"0x10", some (-1)⟩, ⟨"a: \"b\" # c", none⟩]⟩],
    [⟨"", [⟨"\\", "[true]", some 4⟩]⟩]⟩

theorem parse_formats_wordy :
    (∀ s ∈ wordy.texts, ∀ c ∈ s.toList, IsPlain c) ∧
      Format.yaml.parse "<yaml>" wordy.jsonText = .ok wordy ∧
      Format.json.parse "<yaml>" wordy.jsonText = .ok wordy ∧
      Format.toml.parse "<yaml>" wordy.tomlText = .ok wordy := by
  have hplain : ∀ s ∈ wordy.texts, ∀ c ∈ s.toList, IsPlain c := by decide
  exact ⟨hplain, (parse_formats hplain "<yaml>" Backend.cpp).1⟩

end SchemaHeaders
