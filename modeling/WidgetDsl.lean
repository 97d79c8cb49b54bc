import WidgetDsl.Analysis
import WidgetDsl.Attribute.Candidate
import WidgetDsl.Attribute.Group
import WidgetDsl.Attribute.Name
import WidgetDsl.Attribute.Nullability
import WidgetDsl.Catalog
import WidgetDsl.CommandLine.Argument
import WidgetDsl.CommandLine.Layout
import WidgetDsl.CommandLine.Output
import WidgetDsl.CommandLine.Report
import WidgetDsl.CommandLine.Run
import WidgetDsl.CompilationUnit.Basic
import WidgetDsl.CompilationUnit.Body
import WidgetDsl.CompilationUnit.Render
import WidgetDsl.Config.Basic
import WidgetDsl.Config.Fault
import WidgetDsl.Config.File
import WidgetDsl.Config.Load
import WidgetDsl.Config.Settings
import WidgetDsl.Decimal.Binary64
import WidgetDsl.Decimal.Shortest
import WidgetDsl.Dispatch.Case
import WidgetDsl.Dispatch.Listener
import WidgetDsl.Dispatch.Runtime
import WidgetDsl.Dispatch.Setter
import WidgetDsl.Dispatch.Table
import WidgetDsl.Entries
import WidgetDsl.Factory
import WidgetDsl.Failure
import WidgetDsl.Files.Path
import WidgetDsl.Files.Store
import WidgetDsl.Generator
import WidgetDsl.Hierarchy.ResolvedType
import WidgetDsl.Java.Code
import WidgetDsl.Java.Identifier
import WidgetDsl.Java.Imports
import WidgetDsl.Java.TypeName
import WidgetDsl.Json.Reader
import WidgetDsl.Json.Writer
import WidgetDsl.Library.Archive
import WidgetDsl.Library.Declaration
import WidgetDsl.Library.Definition
import WidgetDsl.Library.Descriptor
import WidgetDsl.Library.Loader
import WidgetDsl.Library.Scan
import WidgetDsl.Main
import WidgetDsl.Override.Given
import WidgetDsl.Override.Module
import WidgetDsl.Override.Table
import WidgetDsl.Text.Blank
import WidgetDsl.Text.Case
import WidgetDsl.Text.Printable
import WidgetDsl.Text.Quoted
import WidgetDsl.Text.Runs
import WidgetDsl.Text.Segments
import WidgetDsl.Text.WordChar
import WidgetDsl.Toml.Namespace
import WidgetDsl.Toml.Reader
import WidgetDsl.Toml.Scan
import WidgetDsl.Value
import WidgetDsl.Warning
import WidgetDsl.Proofs.Loading
import WidgetDsl.Proofs.Closure
import WidgetDsl.Proofs.Overriding
import WidgetDsl.Proofs.Acceptance
import WidgetDsl.Proofs.Candidacy
import WidgetDsl.Proofs.Redundancy
import WidgetDsl.Proofs.BranchOrder
import WidgetDsl.Proofs.Dispatching
import WidgetDsl.Proofs.TestedTypes
import WidgetDsl.Proofs.Completion
import WidgetDsl.Proofs.Rearrangement
import WidgetDsl.Proofs.Redeclaration
import WidgetDsl.Proofs.Unmentioned
import WidgetDsl.Proofs.EntryPoints
import WidgetDsl.Proofs.ControlFlow
import WidgetDsl.Proofs.Spelling
import WidgetDsl.Proofs.SingleOverride
import WidgetDsl.Proofs.Writing
import WidgetDsl.Proofs.Contracts
import WidgetDsl.Proofs.EntrySignatures
import WidgetDsl.Proofs.Reporting
import WidgetDsl.Proofs.Grouping
import WidgetDsl.Proofs.Callbacks
import WidgetDsl.Proofs.Forwarding
import WidgetDsl.Proofs.Cataloguing
import WidgetDsl.Proofs.Merging
import WidgetDsl.Proofs.FactoryNaming
import WidgetDsl.Proofs.Classification
import WidgetDsl.Proofs.Repetition
import WidgetDsl.Proofs.Ancestry
import WidgetDsl.Proofs.Placement
import WidgetDsl.Proofs.FullDescriptors
import WidgetDsl.Proofs.Braces
import WidgetDsl.Proofs.Scopes
import WidgetDsl.Proofs.Nesting
import WidgetDsl.Proofs.Composition
import WidgetDsl.Proofs.BinaryNames
import WidgetDsl.Proofs.MethodShapes
