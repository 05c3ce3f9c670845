import SchemaCompiler.Json.Parser
import SchemaCompiler.Main
import SchemaCompiler.Resources
import SchemaCompiler.Proofs.Outcome
import SchemaCompiler.Proofs.CompilationUnit
import SchemaCompiler.Proofs.TypeGraph.Closure
import SchemaCompiler.Proofs.Definition.Registry
import SchemaCompiler.Proofs.Definition.Walk
import SchemaCompiler.Proofs.Schema.Placeholder
import SchemaCompiler.Proofs.Schema.Parts
import SchemaCompiler.Proofs.Schema.BuildClosed
import SchemaCompiler.Proofs.Schema.Built
import SchemaCompiler.Proofs.Numeric.Rounding
import SchemaCompiler.Proofs.Definition.Catalog
import SchemaCompiler.Proofs.Definition.Soundness
import SchemaCompiler.Proofs.Generator.SharedRegistry
import SchemaCompiler.Proofs.Definition.Collision
import SchemaCompiler.Proofs.Generator.Independence
import SchemaCompiler.Proofs.TypeGraph.Exploration
import SchemaCompiler.Proofs.Schema.Proper
import SchemaCompiler.Proofs.Schema.WellShaped
import SchemaCompiler.Proofs.Definition.ForeignClaims
import SchemaCompiler.Proofs.Generator.FailedRoots
import SchemaCompiler.Proofs.Schema.References
import SchemaCompiler.Proofs.Schema.Positions
import SchemaCompiler.Proofs.Schema.Drafts
import SchemaCompiler.Proofs.Document.SelfContained
import SchemaCompiler.Proofs.Document.ReferenceStage
import SchemaCompiler.Proofs.FileTree
import SchemaCompiler.Proofs.Publisher
import SchemaCompiler.Proofs.SchemaName
import SchemaCompiler.Proofs.Resources
import SchemaCompiler.Proofs.Process
import SchemaCompiler.Proofs.Definition.Session
import SchemaCompiler.Proofs.Generator.Sessions
import SchemaCompiler.Proofs.Generator.SchemaNames
import SchemaCompiler.Proofs.Generator.Publishing
import SchemaCompiler.Proofs.Generator.Agreement
import SchemaCompiler.Proofs.Generator.Containment
import SchemaCompiler.Proofs.Instance.Acceptance
import SchemaCompiler.Proofs.Instance.Nullable
import SchemaCompiler.Proofs.Validation.MetaSchema
import SchemaCompiler.Proofs.Uri.Characters
import SchemaCompiler.Proofs.Uri.Scheme
import SchemaCompiler.Proofs.Uri.Host
import SchemaCompiler.Proofs.Uri.Ipv6
import SchemaCompiler.Proofs.Uri.Authority
import SchemaCompiler.Proofs.Uri.Segments
import SchemaCompiler.Proofs.Uri.Canonical
import SchemaCompiler.Proofs.Uri.Rereading
import SchemaCompiler.Proofs.BaseUri
import SchemaCompiler.Proofs.BaseUri.Trimming
import SchemaCompiler.Proofs.BaseUri.Rereading
import SchemaCompiler.Proofs.Configuration
import SchemaCompiler.Proofs.Document.StructurallyValid
import SchemaCompiler.Proofs.TypeGraph.Lookups
import SchemaCompiler.Proofs.Generator.DeclarationOrder
import SchemaCompiler.Proofs.Diagnostic
import SchemaCompiler.Proofs.Generator.Collisions
import SchemaCompiler.Proofs.Definition.Findings
import SchemaCompiler.Proofs.Generator.Findings
import SchemaCompiler.Proofs.Generator.DefinitionOrder
import SchemaCompiler.Proofs.Definition.Expansion
import SchemaCompiler.Proofs.TypeGraph.Flattening
import SchemaCompiler.Proofs.Numeric.Order
import SchemaCompiler.Proofs.Constraint.Contributions
import SchemaCompiler.Proofs.Constraint.Bounds
import SchemaCompiler.Proofs.Constraint.Reading
import SchemaCompiler.Proofs.Constraint.Applicability
import SchemaCompiler.Proofs.Numeric.Nearest
import SchemaCompiler.Proofs.Numeric.Value
import SchemaCompiler.Proofs.Numeric.PowerOfTen
import SchemaCompiler.Proofs.Constraint.Widening
import SchemaCompiler.Proofs.Constraint.Conflicts
import SchemaCompiler.Proofs.Numeric.Interval
import SchemaCompiler.Proofs.Numeric.Shortest
import SchemaCompiler.Proofs.Numeric.DecimalText
import SchemaCompiler.Proofs.Numeric.PrintedPower
import SchemaCompiler.Proofs.Constraint.Digits
import SchemaCompiler.Proofs.Schema.Nullability
import SchemaCompiler.Proofs.Schema.Subjects
import SchemaCompiler.Proofs.Instance.Tags
import SchemaCompiler.Proofs.TypeGraph.Filters
import SchemaCompiler.Proofs.TypeExpr.Spelling
import SchemaCompiler.Proofs.TypeExpr.Reading
import SchemaCompiler.Proofs.TypeExpr.Grammar
import SchemaCompiler.Proofs.TypeExpr.Printing
import SchemaCompiler.Proofs.Constraint.Entries
import SchemaCompiler.Proofs.Constraint.Parameters
import SchemaCompiler.Proofs.Constraint.Kinds
import SchemaCompiler.Proofs.CompilationUnit.Places
import SchemaCompiler.Proofs.Definition.Growth
import SchemaCompiler.Proofs.Publisher.Sequence
import SchemaCompiler.Proofs.TypeGraph.Permission
import SchemaCompiler.Proofs.Generator.Permission
import SchemaCompiler.Proofs.Schema.RenderingOrder
import SchemaCompiler.Proofs.Definition.Substitution
import SchemaCompiler.Proofs.Schema.Documentation
import SchemaCompiler.Proofs.Definition.Documentation
import SchemaCompiler.Proofs.Generator.Documentation
import SchemaCompiler.Proofs.Schema.WrittenKeywords
import SchemaCompiler.Proofs.CompilationUnit.Scopes
