import RegisterMap.Access
import RegisterMap.Bus.Clocked
import RegisterMap.Bus.Memory
import RegisterMap.Bus.Transaction
import RegisterMap.CommandLine
import RegisterMap.Decimal.Reading
import RegisterMap.Decimal.Shortest
import RegisterMap.Digest.Sha256
import RegisterMap.Document.BitRange
import RegisterMap.Document.Draft
import RegisterMap.Document.Located
import RegisterMap.Document.Placement
import RegisterMap.Document.Problem
import RegisterMap.Document.Reading
import RegisterMap.Document.Resolving
import RegisterMap.Document.Shape
import RegisterMap.Engine.Clocked
import RegisterMap.Engine.Error
import RegisterMap.Engine.Handle
import RegisterMap.Engine.Operation
import RegisterMap.Engine.Plan
import RegisterMap.Engine.Script
import RegisterMap.Json.Basic
import RegisterMap.Json.Decoding
import RegisterMap.Json.Number
import RegisterMap.Json.Reading
import RegisterMap.Main
import RegisterMap.Model.Basic
import RegisterMap.Model.Block
import RegisterMap.Model.Caching
import RegisterMap.Model.Encoding
import RegisterMap.Model.Fingerprint
import RegisterMap.Model.Inspection
import RegisterMap.Model.Interface
import RegisterMap.Model.Rendering
import RegisterMap.Options
import RegisterMap.Project.Files
import RegisterMap.Project.Manifest
import RegisterMap.Register
import RegisterMap.Proofs.Bits
import RegisterMap.Proofs.Listing
import RegisterMap.Proofs.Sweep
import RegisterMap.RegisterArray
import RegisterMap.Text.Blank
import RegisterMap.Text.Format
import RegisterMap.Text.Literal
import RegisterMap.Text.Numeral
import RegisterMap.Text.Split
import RegisterMap.Toml.Reading
import RegisterMap.Toml.Scalar
import RegisterMap.Toml.Table
import RegisterMap.Toml.Value
import RegisterMap.Verify.Checks
import RegisterMap.Verify.Overlap
import RegisterMap.Verify.Report
import RegisterMap.Verify.Violation
import RegisterMap.Word
import RegisterMap.Yaml.Cursor
import RegisterMap.Yaml.Error
import RegisterMap.Yaml.Lexeme
import RegisterMap.Yaml.Lexer
import RegisterMap.Yaml.Scalar
import RegisterMap.Yaml.Stream
import RegisterMap.Yaml.Style
import RegisterMap.Yaml.Tag
import RegisterMap.Yaml.Token
import RegisterMap.Yaml.Tree
import RegisterMap.Yaml.Value
import RegisterMap.Yaml.Writer
import RegisterMap.Proofs.Offence
import RegisterMap.Proofs.Validity
import RegisterMap.Proofs.Ensures
import RegisterMap.Proofs.Origins
import RegisterMap.Proofs.Separation
import RegisterMap.Proofs.Aliasing
import RegisterMap.Proofs.Interleaving
import RegisterMap.Proofs.FieldCells
import RegisterMap.Proofs.ArrayAccess
import RegisterMap.Proofs.Paths
import RegisterMap.Proofs.Calls
import RegisterMap.Proofs.Discipline
import RegisterMap.Proofs.Histories
import RegisterMap.Proofs.Guarantees
import RegisterMap.Proofs.Clearing
import RegisterMap.Proofs.ReadOnly
import RegisterMap.Proofs.Linearization
import RegisterMap.Proofs.LockStep
import RegisterMap.Proofs.Assembly
import RegisterMap.Proofs.Layout
import RegisterMap.Proofs.Likeness
import RegisterMap.Proofs.Respelling
import RegisterMap.Proofs.Presentation
import RegisterMap.Proofs.Shapes
import RegisterMap.Proofs.Merging
import RegisterMap.Proofs.Keys
import RegisterMap.Proofs.Records
import RegisterMap.Proofs.Numerals
import RegisterMap.Proofs.JsonText
import RegisterMap.Proofs.Caching
import RegisterMap.Proofs.Fingerprints
import RegisterMap.Proofs.Inlining
import RegisterMap.Proofs.SweepOrder
import RegisterMap.Proofs.Instances
import RegisterMap.Proofs.Cursor
import RegisterMap.Proofs.InstanceNames
import RegisterMap.Proofs.BitRanges
import RegisterMap.Proofs.FieldPlacement
import RegisterMap.Proofs.DefaultStrides
import RegisterMap.Proofs.InterfaceBases
import RegisterMap.Proofs.TotalSize
import RegisterMap.Proofs.ResetWords
import RegisterMap.Proofs.Lookups
import RegisterMap.Proofs.Literals
import RegisterMap.Proofs.FieldWords
import RegisterMap.Proofs.Nesting
import RegisterMap.Proofs.LastBits
