import SqlCompose.Bind.Counters
import SqlCompose.Bind.Inline
import SqlCompose.Bind.Key
import SqlCompose.Bind.Map
import SqlCompose.Bind.Placeholder
import SqlCompose.Bind.Registry
import SqlCompose.Clause.Assignments
import SqlCompose.Clause.Clauses
import SqlCompose.Clause.Conditions
import SqlCompose.Clause.Flags
import SqlCompose.Clause.From
import SqlCompose.Clause.Paging
import SqlCompose.Clause.With
import SqlCompose.Config.Basic
import SqlCompose.Config.Error
import SqlCompose.Config.File
import SqlCompose.Container.OrderedMap
import SqlCompose.Diagnostic
import SqlCompose.Dialect
import SqlCompose.Dialect.Quoted
import SqlCompose.Dialect.Window
import SqlCompose.Json.Number
import SqlCompose.Json.Param
import SqlCompose.Json.Reader
import SqlCompose.Json.Tree
import SqlCompose.Json.Writer
import SqlCompose.Number.Binary64
import SqlCompose.Number.Power
import SqlCompose.Number.Shortest
import SqlCompose.Param
import SqlCompose.Proofs.Alias
import SqlCompose.Proofs.Binding
import SqlCompose.Proofs.Casing
import SqlCompose.Proofs.Clones
import SqlCompose.Proofs.Columns
import SqlCompose.Proofs.Configurations
import SqlCompose.Proofs.Containers
import SqlCompose.Proofs.Criteria
import SqlCompose.Proofs.Deferral
import SqlCompose.Proofs.Dialects
import SqlCompose.Proofs.Edits
import SqlCompose.Proofs.Effects
import SqlCompose.Proofs.Embedding
import SqlCompose.Proofs.Freshness
import SqlCompose.Proofs.Growth
import SqlCompose.Proofs.History
import SqlCompose.Proofs.InlineLists
import SqlCompose.Proofs.Interleaving
import SqlCompose.Proofs.JoinConditions
import SqlCompose.Proofs.JoinKinds
import SqlCompose.Proofs.JsonParams
import SqlCompose.Proofs.JsonTexts
import SqlCompose.Proofs.Keys
import SqlCompose.Proofs.Keywords
import SqlCompose.Proofs.Latest
import SqlCompose.Proofs.Ledger
import SqlCompose.Proofs.LikeClauses
import SqlCompose.Proofs.LikeRuns
import SqlCompose.Proofs.LikeSessions
import SqlCompose.Proofs.LikeStatements
import SqlCompose.Proofs.Likeness
import SqlCompose.Proofs.Lineages
import SqlCompose.Proofs.MapHistories
import SqlCompose.Proofs.Maps
import SqlCompose.Proofs.Marks
import SqlCompose.Proofs.Members
import SqlCompose.Proofs.Occurrences
import SqlCompose.Proofs.Pagination
import SqlCompose.Proofs.Presence
import SqlCompose.Proofs.Printing
import SqlCompose.Proofs.Provenance
import SqlCompose.Proofs.Queries
import SqlCompose.Proofs.Quoting
import SqlCompose.Proofs.Reach
import SqlCompose.Proofs.Reading
import SqlCompose.Proofs.Referents
import SqlCompose.Proofs.Renaming
import SqlCompose.Proofs.Rendering
import SqlCompose.Proofs.Restart
import SqlCompose.Proofs.SavedConfigurations
import SqlCompose.Proofs.Selfsame
import SqlCompose.Proofs.Shifts
import SqlCompose.Proofs.Sites
import SqlCompose.Proofs.Spacing
import SqlCompose.Proofs.Stability
import SqlCompose.Proofs.Substitution
import SqlCompose.Proofs.Tidiness
import SqlCompose.Proofs.TidyRuns
import SqlCompose.Proofs.TidyStatements
import SqlCompose.Proofs.Tokens
import SqlCompose.Proofs.TomlDocuments
import SqlCompose.Proofs.TomlTexts
import SqlCompose.Proofs.Traversals
import SqlCompose.Proofs.Trimming
import SqlCompose.Proofs.Upkeep
import SqlCompose.Proofs.Windows
import SqlCompose.Proofs.Words
import SqlCompose.Query.Basic
import SqlCompose.Query.Connection
import SqlCompose.Query.Error
import SqlCompose.Query.Factory
import SqlCompose.Query.Fetch
import SqlCompose.Session.Basic
import SqlCompose.Session.Step
import SqlCompose.Statement.Basic
import SqlCompose.Statement.Delete
import SqlCompose.Statement.Draft
import SqlCompose.Statement.Insert
import SqlCompose.Statement.Reference
import SqlCompose.Statement.Select
import SqlCompose.Statement.Update
import SqlCompose.Text.Blank
import SqlCompose.Text.Hex
import SqlCompose.Text.Listing
import SqlCompose.Text.Numeral
import SqlCompose.Text.Upper
import SqlCompose.Text.UpperTable
import SqlCompose.Toml.Document
import SqlCompose.Toml.Reader
import SqlCompose.Toml.Scalar
import SqlCompose.Toml.Text
import SqlCompose.Toml.Writer
import SqlCompose.Value
