import TextTemplate.Command.Arguments
import TextTemplate.Command.DataFile
import TextTemplate.Command.Report
import TextTemplate.Command.Run
import TextTemplate.Command.Settings
import TextTemplate.Compiled
import TextTemplate.Decimal.Reading
import TextTemplate.Decimal.Stepwise
import TextTemplate.Decimal.Style
import TextTemplate.Fault
import TextTemplate.Json.Problem
import TextTemplate.Json.Reading
import TextTemplate.Render.Chain
import TextTemplate.Store.FilePath
import TextTemplate.Syntax.Lexer
import TextTemplate.Syntax.Parser
import TextTemplate.Table
import TextTemplate.Text.CaseStyle
import TextTemplate.Text.Lines
import TextTemplate.Text.Markup
import TextTemplate.Text.Percent
import TextTemplate.Text.Quoted
import TextTemplate.Text.Rotation
import TextTemplate.Text.Slug
import TextTemplate.Text.Utf8
import TextTemplate.Toml.Basic
import TextTemplate.Toml.Number
import TextTemplate.Toml.Reading
import TextTemplate.Toml.Text
import TextTemplate.Value.FromJson
import TextTemplate.Value.Merge
import TextTemplate.Value.Order
import TextTemplate.Value.Path
import TextTemplate.Value.Printing
import TextTemplate.Yaml.Basic
import TextTemplate.Yaml.BlockScalar
import TextTemplate.Yaml.Cursor
import TextTemplate.Yaml.Reading
import TextTemplate.Yaml.Scalar
import TextTemplate.Main
import TextTemplate.Proofs.Code.Placement
import TextTemplate.Proofs.Code.Simulation
import TextTemplate.Proofs.Evaluation
import TextTemplate.Proofs.Fields
import TextTemplate.Proofs.Results
import TextTemplate.Proofs.Tables
import TextTemplate.Proofs.Store.Path
import TextTemplate.Proofs.Store.Confinement
import TextTemplate.Proofs.Store.Bound
import TextTemplate.Proofs.Store.Existence
import TextTemplate.Proofs.Code.Correctness
import TextTemplate.Proofs.Code.Effects
import TextTemplate.Proofs.Code.Absence
import TextTemplate.Proofs.Compiled
import TextTemplate.Proofs.Declarations
import TextTemplate.Proofs.Render.Fragments
import TextTemplate.Proofs.Render.Layouts
import TextTemplate.Proofs.Render.Termination
import TextTemplate.Proofs.Render.Streaming
import TextTemplate.Proofs.Syntax.Cutting
import TextTemplate.Proofs.Syntax.Tiling
import TextTemplate.Proofs.Syntax.Running
import TextTemplate.Proofs.Syntax.Spelling
import TextTemplate.Proofs.Syntax.Precedence
import TextTemplate.Proofs.Syntax.Recognition
import TextTemplate.Proofs.Syntax.Grammar
import TextTemplate.Proofs.Syntax.Locality
import TextTemplate.Proofs.Syntax.Tags
import TextTemplate.Proofs.Syntax.Statements
import TextTemplate.Proofs.Syntax.Nesting
import TextTemplate.Proofs.Syntax.Recutting
import TextTemplate.Proofs.Syntax.Sections
import TextTemplate.Code.Emitter
import TextTemplate.Proofs.Code.Patching
import TextTemplate.Proofs.Code.Branches
import TextTemplate.Proofs.Code.Frames
import TextTemplate.Proofs.Code.Heights
import TextTemplate.Proofs.Render.Operands
import TextTemplate.Proofs.Render.WellFormed
import TextTemplate.Proofs.Syntax.Invariants
import TextTemplate.Proofs.Syntax.Spans
import TextTemplate.Proofs.Syntax.Lines
import TextTemplate.Proofs.Syntax.Nodes
import TextTemplate.Proofs.Code.Origins
import TextTemplate.Proofs.Code.Culprits
import TextTemplate.Proofs.Code.Failing
import TextTemplate.Proofs.Render.Places
import TextTemplate.Proofs.Render.Excerpts
import TextTemplate.Proofs.Render.Explained
import TextTemplate.Proofs.Code.Raising
import TextTemplate.Proofs.Render.SyntaxErrors
import TextTemplate.Proofs.Filling
import TextTemplate.Proofs.Bare
import TextTemplate.Proofs.Render.Discarding
import TextTemplate.Proofs.Render.Sections
import TextTemplate.Proofs.Render.Plain
import TextTemplate.Proofs.Syntax.Segments
import TextTemplate.Proofs.Syntax.Misreading
import TextTemplate.Proofs.Syntax.Paths
import TextTemplate.Proofs.Render.Paths
import TextTemplate.Proofs.Syntax.Joining
import TextTemplate.Proofs.Syntax.Relocation
import TextTemplate.Proofs.Render.Joining
import TextTemplate.Proofs.Syntax.Depth
import TextTemplate.Proofs.Syntax.Limits
import TextTemplate.Proofs.Syntax.Negations
import TextTemplate.Proofs.Decimal.Rounding
import TextTemplate.Proofs.Value.Equality
import TextTemplate.Proofs.Value.Comparison
import TextTemplate.Proofs.Value.Transitivity
import TextTemplate.Proofs.Value.Keyed
import TextTemplate.Proofs.Value.Symmetry
import TextTemplate.Proofs.Code.Comparisons
import TextTemplate.Proofs.FillDepth
import TextTemplate.Proofs.Syntax.Literals
import TextTemplate.Proofs.Syntax.Filters
import TextTemplate.Proofs.Filter.Registry
import TextTemplate.Proofs.Render.Filters
import TextTemplate.Proofs.Store.Replacement
import TextTemplate.Proofs.Store.Siblings
import TextTemplate.Proofs.Render.Missing
import TextTemplate.Proofs.Command.Output
import TextTemplate.Proofs.Value.Settling
import TextTemplate.Value.Delivery
import TextTemplate.Proofs.Value.Delivery
import TextTemplate.Proofs.Value.Descriptions
import TextTemplate.Proofs.Value.Merging
import TextTemplate.Proofs.Rearranging
import TextTemplate.Proofs.Extending
import TextTemplate.Proofs.Decimal.Shortest
import TextTemplate.Proofs.Syntax.LiteralTags
import TextTemplate.Proofs.Render.Literals
import TextTemplate.Proofs.Render.Quotes
import TextTemplate.Proofs.Render.Texts
import TextTemplate.Proofs.Sessions
import TextTemplate.Proofs.Text.Escaping
import TextTemplate.Proofs.Text.Tags
import TextTemplate.Proofs.Text.Words
import TextTemplate.Proofs.Value.Definite
import TextTemplate.Proofs.Decimal.Digits
import TextTemplate.Proofs.Json.Grammar
import TextTemplate.Proofs.Json.Strings
import TextTemplate.Proofs.Json.Reading
import TextTemplate.Proofs.Command.Defines
import TextTemplate.Proofs.Command.Inputs
import TextTemplate.Proofs.Command.Variables
import TextTemplate.Proofs.Syntax.Items
