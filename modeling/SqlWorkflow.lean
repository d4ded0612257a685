import SqlWorkflow.Main
import SqlWorkflow.Proofs.Sqlx.Partition
import SqlWorkflow.Proofs.Sqlx.Extraction
import SqlWorkflow.Proofs.Json.Decode
import SqlWorkflow.Proofs.Action.DependencyNames
import SqlWorkflow.Proofs.Graph.Lists
import SqlWorkflow.Proofs.Graph.Search
import SqlWorkflow.Proofs.Graph.Marking
import SqlWorkflow.Proofs.Graph.Reports
import SqlWorkflow.Proofs.Registry.Indexed
import SqlWorkflow.Proofs.Link.Linked
import SqlWorkflow.Proofs.Graph.Order
import SqlWorkflow.Proofs.Link.Calls
import SqlWorkflow.Proofs.Link.Dependencies
import SqlWorkflow.Proofs.Registry.Lookups
import SqlWorkflow.Proofs.Registry.Reordered
import SqlWorkflow.Proofs.Link.Kept
import SqlWorkflow.Proofs.Link.Like
import SqlWorkflow.Proofs.Link.Alike
import SqlWorkflow.Proofs.Link.Reordered
import SqlWorkflow.Proofs.Compile.Identities
import SqlWorkflow.Proofs.Compile.Readings
import SqlWorkflow.Proofs.Compile.Environments
import SqlWorkflow.Proofs.Action.Kinds
import SqlWorkflow.Proofs.Link.Written
import SqlWorkflow.Proofs.Compile.Registered
import SqlWorkflow.Proofs.Compile.Edges
import SqlWorkflow.Proofs.Compile.Definitions
import SqlWorkflow.Proofs.Template.Literal
import SqlWorkflow.Proofs.Link.Verbatim
import SqlWorkflow.Proofs.Compile.Verbatim
import SqlWorkflow.Proofs.Compile.Carriers
import SqlWorkflow.Proofs.Sqlx.Semicolon
import SqlWorkflow.Proofs.Compile.Terminated
import SqlWorkflow.Proofs.Expr.Reading
import SqlWorkflow.Proofs.Expr.Literal
import SqlWorkflow.Proofs.Expr.Document
import SqlWorkflow.Proofs.Expr.Grammar
import SqlWorkflow.Proofs.Expr.Acceptance
import SqlWorkflow.Proofs.Link.Environments
import SqlWorkflow.Proofs.Action.Checks
import SqlWorkflow.Proofs.Target.AssertionNames
import SqlWorkflow.Proofs.Registry.Repeated
import SqlWorkflow.Proofs.Compile.Duplicates
import SqlWorkflow.Proofs.Compile.SourceEntries
import SqlWorkflow.Proofs.Compile.Inventory
import SqlWorkflow.Proofs.Lexical.Boundary
import SqlWorkflow.Proofs.Sqlx.Assembly
import SqlWorkflow.Proofs.Lexical.Balanced
import SqlWorkflow.Proofs.Expr.Balanced
import SqlWorkflow.Proofs.Action.Refusals
import SqlWorkflow.Proofs.Compile.ConfigBlock
import SqlWorkflow.Proofs.Link.FileNames
import SqlWorkflow.Proofs.Action.Names
import SqlWorkflow.Proofs.Compile.FrontEnds
import SqlWorkflow.Proofs.Template.Splitting
import SqlWorkflow.Proofs.Registry.Suggestions
import SqlWorkflow.Proofs.Sqlx.Statements
import SqlWorkflow.Proofs.Expr.Parts
import SqlWorkflow.Proofs.Link.Nesting
import SqlWorkflow.Proofs.Link.Evaluated
import SqlWorkflow.Proofs.Link.Neutral
import SqlWorkflow.Proofs.Link.Failures
import SqlWorkflow.Proofs.Sqlx.Trivia
import SqlWorkflow.Proofs.Registry.Additions
import SqlWorkflow.Proofs.Link.DataChecks
import SqlWorkflow.Proofs.Json.Records
import SqlWorkflow.Proofs.Action.Fields
import SqlWorkflow.Proofs.Action.Rules
import SqlWorkflow.Proofs.Action.Acceptance
import SqlWorkflow.Proofs.Action.NestedRecords
import SqlWorkflow.Proofs.Lexical.Tiling
import SqlWorkflow.Proofs.Expr.Spelling
import SqlWorkflow.Proofs.Expr.Depth
import SqlWorkflow.Proofs.Json.TypedReading
import SqlWorkflow.Proofs.Settings.Legacy
import SqlWorkflow.Proofs.Link.Agreement
import SqlWorkflow.Proofs.Link.Modes
import SqlWorkflow.Proofs.Registry.Growth
import SqlWorkflow.Proofs.Link.Unrelated
import SqlWorkflow.Proofs.Link.ObjectReferences
import SqlWorkflow.Proofs.Link.QuotedConditions
import SqlWorkflow.Proofs.Text.EditDistance
import SqlWorkflow.Proofs.Link.Native
import SqlWorkflow.Proofs.Sqlx.FileName
import SqlWorkflow.Proofs.Compile.NamedActions
import SqlWorkflow.Proofs.Project.Path
import SqlWorkflow.Proofs.Text.Pieces
import SqlWorkflow.Proofs.Warehouse.Address
import SqlWorkflow.Proofs.Compile.Addresses
import SqlWorkflow.Proofs.Compile.ReferredFiles
