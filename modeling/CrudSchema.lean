import CrudSchema.Api
import CrudSchema.Classification
import CrudSchema.Collection
import CrudSchema.CommandLine.Execution
import CrudSchema.CommandLine.Page
import CrudSchema.CommandLine.Request
import CrudSchema.CommandLine.Switch
import CrudSchema.Config.Basic
import CrudSchema.Config.File
import CrudSchema.Config.Issue
import CrudSchema.Declaration
import CrudSchema.Derivation.Inputs
import CrudSchema.Derivation.ScalarFilter
import CrudSchema.Draft
import CrudSchema.Fault
import CrudSchema.FileTree
import CrudSchema.FilterShape
import CrudSchema.Generation
import CrudSchema.Journal
import CrudSchema.Main
import CrudSchema.Naming
import CrudSchema.Number.Binary64
import CrudSchema.Number.Notation
import CrudSchema.OrderedMap
import CrudSchema.Path
import CrudSchema.Proofs.Draft
import CrudSchema.Proofs.Naming
import CrudSchema.Proofs.OrderedMap
import CrudSchema.Registry
import CrudSchema.Schema.Assembly
import CrudSchema.Schema.Basic
import CrudSchema.Schema.Catalogue
import CrudSchema.Schema.Fault
import CrudSchema.Schema.Name
import CrudSchema.Schema.Printer
import CrudSchema.Schema.Validity
import CrudSchema.Sdl.BlockString
import CrudSchema.Sdl.Definition
import CrudSchema.Sdl.Document
import CrudSchema.Sdl.Grammar
import CrudSchema.Sdl.Lexer
import CrudSchema.Sdl.Read
import CrudSchema.Sdl.Token
import CrudSchema.Session
import CrudSchema.Synthesis
import CrudSchema.SynthesisError
import CrudSchema.Text.Base64
import CrudSchema.Text.Blank
import CrudSchema.Text.Case
import CrudSchema.Text.CaseTable
import CrudSchema.Text.Digit
import CrudSchema.Text.Numeral
import CrudSchema.Text.PrintableTable
import CrudSchema.Text.Quoted
import CrudSchema.Text.Split
import CrudSchema.Text.Utf8
import CrudSchema.TypeRef
import CrudSchema.Value
import CrudSchema.Yaml.Conversion
import CrudSchema.Yaml.Cursor
import CrudSchema.Yaml.Fault
import CrudSchema.Yaml.Layout
import CrudSchema.Yaml.Merge
import CrudSchema.Yaml.Node
import CrudSchema.Yaml.Reader
import CrudSchema.Yaml.Scalar
import CrudSchema.Yaml.Tag
import CrudSchema.Yaml.Token
import CrudSchema.Yaml.Writer
import CrudSchema.Proofs.Derivation
import CrudSchema.Proofs.Classification
import CrudSchema.Proofs.Registry
import CrudSchema.Proofs.Synthesis
import CrudSchema.Proofs.Acceptance
import CrudSchema.Proofs.Catalogue
import CrudSchema.Proofs.Reach
import CrudSchema.Proofs.Validity
import CrudSchema.Proofs.Content
import CrudSchema.Proofs.Refinement
import CrudSchema.Proofs.Lexing
import CrudSchema.Proofs.DescriptionText
import CrudSchema.Proofs.Spelling
import CrudSchema.Proofs.Parsing
import CrudSchema.Proofs.Depth
import CrudSchema.Proofs.Readable
import CrudSchema.Proofs.RoundTrip
import CrudSchema.Proofs.Merging
import CrudSchema.Proofs.Reordering
import CrudSchema.Proofs.Checking
import CrudSchema.Proofs.Growth
import CrudSchema.Proofs.Parts
import CrudSchema.Proofs.Combinators
import CrudSchema.Proofs.Commands
import CrudSchema.Proofs.Coverage
import CrudSchema.Proofs.Operations
import CrudSchema.Proofs.Families
import CrudSchema.Proofs.FileTree
import CrudSchema.Proofs.Writing
import CrudSchema.Proofs.Exactness
import CrudSchema.Proofs.Substitution
import CrudSchema.Proofs.Blame
import CrudSchema.Proofs.ScalarFilters
import CrudSchema.Proofs.Registration
import CrudSchema.Proofs.Rendering
import CrudSchema.Proofs.Flaws
import CrudSchema.Proofs.Omission
import CrudSchema.Proofs.Path
import CrudSchema.Proofs.Collection
import CrudSchema.Proofs.Delivery
import CrudSchema.Proofs.Destination
import CrudSchema.Proofs.LineEnds
import CrudSchema.Proofs.Quoting
import CrudSchema.Proofs.PlainScalars
import CrudSchema.Proofs.Numerals
import CrudSchema.Proofs.Written
import CrudSchema.Proofs.Layout
import CrudSchema.Proofs.Nodes
import CrudSchema.Proofs.Building
import CrudSchema.Proofs.Saving
import CrudSchema.Proofs.Regeneration
import CrudSchema.Proofs.Starting
