import SmithyKotlin.Collections.Entries
import SmithyKotlin.Collections.KeyedList
import SmithyKotlin.Collections.SortedMap
import SmithyKotlin.CommandLine.Arguments
import SmithyKotlin.CommandLine.Basic
import SmithyKotlin.Document.Basic
import SmithyKotlin.Document.Conversion
import SmithyKotlin.Document.Decoder
import SmithyKotlin.Document.Encoder
import SmithyKotlin.Document.File
import SmithyKotlin.Error
import SmithyKotlin.Files.Path
import SmithyKotlin.Files.Tree
import SmithyKotlin.Json.Basic
import SmithyKotlin.Json.Decode
import SmithyKotlin.Json.Fault
import SmithyKotlin.Json.Lexeme
import SmithyKotlin.Json.Printer
import SmithyKotlin.Json.Reader
import SmithyKotlin.Json.Source
import SmithyKotlin.Main
import SmithyKotlin.Model.Basic
import SmithyKotlin.Model.Graph
import SmithyKotlin.Model.Prelude
import SmithyKotlin.Model.ShapeId
import SmithyKotlin.Model.ShapeType
import SmithyKotlin.Model.Summary
import SmithyKotlin.Model.Traits
import SmithyKotlin.Naming
import SmithyKotlin.Number.Basic
import SmithyKotlin.Number.Double
import SmithyKotlin.Number.Shortest
import SmithyKotlin.Number.Text
import SmithyKotlin.Proofs.Collections.KeyedList
import SmithyKotlin.Proofs.Collections.SortedMap
import SmithyKotlin.Proofs.CommandLine.Precedence
import SmithyKotlin.Proofs.Document.Applying
import SmithyKotlin.Proofs.Document.Conversion
import SmithyKotlin.Proofs.Document.Decoded
import SmithyKotlin.Proofs.Document.Description
import SmithyKotlin.Proofs.Document.MemberIds
import SmithyKotlin.Proofs.Document.Order
import SmithyKotlin.Proofs.Document.ParsedModel
import SmithyKotlin.Proofs.Document.Printed
import SmithyKotlin.Proofs.Document.Reading
import SmithyKotlin.Proofs.Document.RoundTrip
import SmithyKotlin.Proofs.Files.Confinement
import SmithyKotlin.Proofs.Files.Path
import SmithyKotlin.Proofs.Files.Place
import SmithyKotlin.Proofs.Files.Writes
import SmithyKotlin.Proofs.Json.Carried
import SmithyKotlin.Proofs.Json.Numbers
import SmithyKotlin.Proofs.Json.Printable
import SmithyKotlin.Proofs.Json.Printed
import SmithyKotlin.Proofs.Json.Written
import SmithyKotlin.Proofs.Model.Address
import SmithyKotlin.Proofs.Model.Changes
import SmithyKotlin.Proofs.Model.Prelude
import SmithyKotlin.Proofs.Model.WellKeyed
import SmithyKotlin.Proofs.Naming.CamelCase
import SmithyKotlin.Proofs.Naming.Casing
import SmithyKotlin.Proofs.Naming.ClassName
import SmithyKotlin.Proofs.Naming.Legality
import SmithyKotlin.Proofs.Naming.Spelling
import SmithyKotlin.Proofs.Naming.StringLiteral
import SmithyKotlin.Proofs.Number.Reading
import SmithyKotlin.Proofs.Number.Rounding
import SmithyKotlin.Proofs.Number.Shortest
import SmithyKotlin.Proofs.Outcome
import SmithyKotlin.Proofs.Rendering.Agreement
import SmithyKotlin.Proofs.Rendering.Annotations
import SmithyKotlin.Proofs.Rendering.Arrays
import SmithyKotlin.Proofs.Rendering.Arrival
import SmithyKotlin.Proofs.Rendering.Closure
import SmithyKotlin.Proofs.Rendering.Confinement
import SmithyKotlin.Proofs.Rendering.Dependencies
import SmithyKotlin.Proofs.Rendering.Emission
import SmithyKotlin.Proofs.Rendering.Generation
import SmithyKotlin.Proofs.Rendering.LegalNames
import SmithyKotlin.Proofs.Rendering.Lines
import SmithyKotlin.Proofs.Rendering.Locality
import SmithyKotlin.Proofs.Rendering.Location
import SmithyKotlin.Proofs.Rendering.Manifest
import SmithyKotlin.Proofs.Rendering.Merge
import SmithyKotlin.Proofs.Rendering.PackageNames
import SmithyKotlin.Proofs.Rendering.Partition
import SmithyKotlin.Proofs.Rendering.Records
import SmithyKotlin.Proofs.Rendering.Resolution
import SmithyKotlin.Proofs.Rendering.ServiceFilter
import SmithyKotlin.Proofs.Rendering.ShortTypes
import SmithyKotlin.Proofs.Rendering.Stopping
import SmithyKotlin.Proofs.Settings.Encoded
import SmithyKotlin.Proofs.Settings.Forms
import SmithyKotlin.Proofs.Settings.Package
import SmithyKotlin.Proofs.Structure.Captures
import SmithyKotlin.Proofs.Structure.Defaults
import SmithyKotlin.Proofs.Structure.Evaluation
import SmithyKotlin.Proofs.Structure.Hashing
import SmithyKotlin.Proofs.Structure.Literals
import SmithyKotlin.Proofs.Structure.Messages
import SmithyKotlin.Proofs.Structure.Methods
import SmithyKotlin.Proofs.Structure.Planning
import SmithyKotlin.Proofs.Structure.PropertyNames
import SmithyKotlin.Proofs.Structure.Redaction
import SmithyKotlin.Proofs.Structure.Values
import SmithyKotlin.Proofs.Symbol.Dependencies
import SmithyKotlin.Proofs.Symbol.Locality
import SmithyKotlin.Proofs.Symbol.Mentions
import SmithyKotlin.Proofs.Symbol.Nesting
import SmithyKotlin.Proofs.Symbol.Resemblance
import SmithyKotlin.Proofs.Symbol.TypeName
import SmithyKotlin.Proofs.Symbol.TypeText
import SmithyKotlin.Proofs.Text.ByteOrder
import SmithyKotlin.Proofs.Text.Cut
import SmithyKotlin.Proofs.Text.Pieces
import SmithyKotlin.Proofs.Union.Accessors
import SmithyKotlin.Proofs.Union.Members
import SmithyKotlin.Proofs.Union.Names
import SmithyKotlin.Proofs.Union.Order
import SmithyKotlin.Proofs.Union.Planning
import SmithyKotlin.Proofs.Union.ValueTypes
import SmithyKotlin.Proofs.Writer.Comments
import SmithyKotlin.Proofs.Writer.Dependencies
import SmithyKotlin.Proofs.Writer.Imports
import SmithyKotlin.Proofs.Writer.Lines
import SmithyKotlin.Proofs.Writer.Nesting
import SmithyKotlin.Proofs.Writer.Scope
import SmithyKotlin.Rendering.Basic
import SmithyKotlin.Rendering.Generation
import SmithyKotlin.Rendering.Manifest
import SmithyKotlin.Rendering.SourceFile
import SmithyKotlin.Settings.Basic
import SmithyKotlin.Settings.File
import SmithyKotlin.Settings.Json
import SmithyKotlin.Settings.Yaml
import SmithyKotlin.Strategy
import SmithyKotlin.Structure.Basic
import SmithyKotlin.Structure.Default
import SmithyKotlin.Structure.Emission
import SmithyKotlin.Symbol.Basic
import SmithyKotlin.Symbol.Json
import SmithyKotlin.Symbol.KotlinType
import SmithyKotlin.Symbol.Provider
import SmithyKotlin.Text.Blank
import SmithyKotlin.Text.Case
import SmithyKotlin.Text.DecimalDigit
import SmithyKotlin.Text.Quoted
import SmithyKotlin.Union.Basic
import SmithyKotlin.Union.Emission
import SmithyKotlin.Union.Members
import SmithyKotlin.Writer.Basic
import SmithyKotlin.Writer.Documentation
import SmithyKotlin.Yaml.Cursor
import SmithyKotlin.Yaml.Reader
import SmithyKotlin.Yaml.Scalar
import SmithyKotlin.Yaml.Tag
