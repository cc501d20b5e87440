import SchemaHeaders.Main
import SchemaHeaders.Proofs.Verdict
import SchemaHeaders.Proofs.EnumHeaders
import SchemaHeaders.Proofs.Steps
import SchemaHeaders.Proofs.Checking
import SchemaHeaders.Proofs.Tree
import SchemaHeaders.Proofs.PlainPath
import SchemaHeaders.Proofs.Walk
import SchemaHeaders.Proofs.Evolution
import SchemaHeaders.Proofs.Preparation
import SchemaHeaders.Proofs.Readiness
import SchemaHeaders.Proofs.Headers
import SchemaHeaders.Proofs.OwnFiles
import SchemaHeaders.Proofs.References
import SchemaHeaders.Proofs.FileNames
import SchemaHeaders.Proofs.Entries
import SchemaHeaders.Proofs.FreshDirectory
import SchemaHeaders.Proofs.Frame
import SchemaHeaders.Proofs.SharedDirectory
import SchemaHeaders.Proofs.SchemaFile
import SchemaHeaders.Proofs.PlainDirectory
import SchemaHeaders.Proofs.PlainOutput
import SchemaHeaders.Proofs.Interruption
import SchemaHeaders.Proofs.History
import SchemaHeaders.Proofs.JsonGrammar
import SchemaHeaders.Proofs.JsonSchema
import SchemaHeaders.Proofs.Datum
import SchemaHeaders.Proofs.WideSchema
import SchemaHeaders.Proofs.TomlText
import SchemaHeaders.Proofs.YamlTokens
import SchemaHeaders.Proofs.YamlText
import SchemaHeaders.Proofs.FormatAgreement
import SchemaHeaders.Proofs.Integers
import SchemaHeaders.Proofs.Identifiers
import SchemaHeaders.Proofs.HeaderText
import SchemaHeaders.Proofs.CanonicalNames
import SchemaHeaders.Proofs.Guards
import SchemaHeaders.Proofs.Items
import SchemaHeaders.Proofs.Reordering
import SchemaHeaders.Proofs.CaseLaws
import SchemaHeaders.Proofs.Validation
import SchemaHeaders.Proofs.TomlTables
import SchemaHeaders.Proofs.Settings
import SchemaHeaders.Proofs.Layers
