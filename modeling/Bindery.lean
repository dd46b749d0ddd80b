import Bindery.Binding.Basic
import Bindery.Binding.Build
import Bindery.Binding.Plan
import Bindery.Binding.Resolve
import Bindery.Catalog.Basic
import Bindery.Catalog.Lookup
import Bindery.Catalog.SymbolTable
import Bindery.Column
import Bindery.Command.Arguments
import Bindery.Command.Run
import Bindery.Config
import Bindery.Diagnostic
import Bindery.File.Basic
import Bindery.File.Path
import Bindery.File.Tree
import Bindery.Fragment
import Bindery.GenerateError
import Bindery.Main
import Bindery.Module.Block
import Bindery.Module.Default
import Bindery.Module.Descriptor
import Bindery.Module.Generate
import Bindery.Module.Hint
import Bindery.Module.Imports
import Bindery.Module.Literal
import Bindery.Module.Support
import Bindery.Module.Wrapper
import Bindery.Name.Grant
import Bindery.Name.Identifier
import Bindery.Name.Singular
import Bindery.Number.Binary64
import Bindery.Number.Numeral
import Bindery.Number.Shortest
import Bindery.Options
import Bindery.Order
import Bindery.ParseError
import Bindery.Position
import Bindery.Proofs.Text.Basic
import Bindery.Proofs.Token.Boundary
import Bindery.Proofs.Token.Grammar
import Bindery.Proofs.Token.Spelling
import Bindery.Schema
import Bindery.SchemaError
import Bindery.Signature
import Bindery.Statement.Doc
import Bindery.Statement.Segment
import Bindery.Text.Alphabetic
import Bindery.Text.Basic
import Bindery.Text.Blank
import Bindery.Text.Case
import Bindery.Text.Lower
import Bindery.Text.Range
import Bindery.Text.Sorted
import Bindery.Text.Words
import Bindery.Token.Basic
import Bindery.Token.Cursor
import Bindery.Token.Lexeme
import Bindery.Token.Run
import Bindery.Type.Reference
import Bindery.Type.Scalar
import Bindery.Type.Value
import Bindery.Proofs.Basic.Lists
import Bindery.Proofs.Basic.Except
import Bindery.Proofs.Token.Kinds
import Bindery.Proofs.Token.Lexes
import Bindery.Proofs.Token.Tiling
import Bindery.Proofs.Nesting
import Bindery.Proofs.Statement.Groups
import Bindery.Proofs.Statement.Blanking
import Bindery.Proofs.Fragment.TopLevel
import Bindery.Proofs.Fragment.Strokes
import Bindery.Proofs.Fragment.Located
import Bindery.Proofs.Fragment.Agreement
import Bindery.Proofs.Catalog.Registration
import Bindery.Proofs.Catalog.Merging
import Bindery.Proofs.Name.Grant
import Bindery.Proofs.Binding.ClassNames
import Bindery.Proofs.Binding.Reach
import Bindery.Proofs.Binding.References
import Bindery.Proofs.Place.Basic
import Bindery.Proofs.Place.Declaration
import Bindery.Proofs.Statement.Joining
import Bindery.Proofs.Statement.Cleaning
import Bindery.Proofs.Statement.Documentation
import Bindery.Proofs.Schema.Joining
import Bindery.Proofs.Order.Placing
import Bindery.Proofs.Order.Counting
import Bindery.Proofs.Order.Renumbering
import Bindery.Proofs.Text.Sorted
import Bindery.Proofs.Module.ClassUse
import Bindery.Proofs.Module.DefinitionOrder
import Bindery.Proofs.Schema.Parsed
import Bindery.Proofs.Name.Naming
import Bindery.Proofs.Name.Legal
import Bindery.Proofs.Binding.Collisions
import Bindery.Proofs.Binding.Assembly
import Bindery.Proofs.Binding.UniqueNames
import Bindery.Proofs.Binding.LegalNames
import Bindery.Proofs.Binding.Returns
import Bindery.Proofs.Binding.ReachedTables
import Bindery.Proofs.Binding.Occurrences
import Bindery.Proofs.Binding.Strictness
import Bindery.Proofs.Place.Alike
import Bindery.Proofs.Schema.Placement
import Bindery.Proofs.Text.Cut
import Bindery.Proofs.Text.Lines
import Bindery.Proofs.Token.Printing
import Bindery.Proofs.Fragment.Printing
import Bindery.Proofs.Column.Writing
import Bindery.Proofs.Column.RoundTrip
import Bindery.Proofs.Module.Literal
import Bindery.Proofs.Schema.EnumStatement
import Bindery.Proofs.Module.Docstring
import Bindery.Proofs.Module.EnumLabels
import Bindery.Proofs.Order.Greedy
import Bindery.Proofs.Order.Cycles
import Bindery.Proofs.Catalog.FullNames
import Bindery.Proofs.Code.Reading
import Bindery.Proofs.Code.Atoms
import Bindery.Proofs.Module.Mentions
import Bindery.Proofs.Code.Standard
import Bindery.Proofs.Module.Sections
import Bindery.Proofs.Module.Calls
import Bindery.Proofs.Module.Descriptions
import Bindery.Proofs.Module.Registrations
import Bindery.Proofs.Module.ImportBlock
import Bindery.Proofs.Module.Rebinding
import Bindery.Proofs.Module.SupportUse
import Bindery.Proofs.Fragment.Whole
import Bindery.Proofs.Column.Definition
import Bindery.Proofs.Column.Checks
import Bindery.Proofs.Column.Nullability
import Bindery.Proofs.Module.Placeholders
import Bindery.Proofs.Module.CallName
import Bindery.Proofs.Module.Captures
import Bindery.Proofs.Column.NullDefault
import Bindery.Proofs.Module.Defaults
import Bindery.Proofs.Fragment.Joining
import Bindery.Proofs.Fragment.Spans
import Bindery.Proofs.Signature.Header
import Bindery.Proofs.Signature.RoundTrip
import Bindery.Proofs.Signature.Locality
import Bindery.Proofs.Catalog.Domains
import Bindery.Proofs.Text.Lowering
import Bindery.Proofs.Token.Faults
import Bindery.Proofs.Binding.LegalClasses
import Bindery.Proofs.Type.Composition
import Bindery.Proofs.Module.Quoting
import Bindery.Proofs.Statement.Matching
import Bindery.Proofs.Schema.Lists
import Bindery.Proofs.Schema.Accounts
