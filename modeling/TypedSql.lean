import TypedSql.Main
import TypedSql.Registry
import TypedSql.Tree.Build
import TypedSql.Proofs.Structure
import TypedSql.Proofs.Validation
import TypedSql.Proofs.Precedence
import TypedSql.Proofs.Capability
import TypedSql.Proofs.RoundTrip
import TypedSql.Proofs.Ceiling
import TypedSql.Proofs.Numbering
import TypedSql.Proofs.Nested
import TypedSql.Proofs.Clauses
import TypedSql.Proofs.Construction
import TypedSql.Proofs.Aggregates
import TypedSql.Proofs.Catalogs
import TypedSql.Proofs.Aliases
import TypedSql.Proofs.Computed
import TypedSql.Proofs.Frames
import TypedSql.Proofs.Assignments
import TypedSql.Proofs.Filters
import TypedSql.Proofs.AssignmentOrder
import TypedSql.Proofs.InsertedRows
import TypedSql.Proofs.Conjunction
import TypedSql.Proofs.SetOperations
import TypedSql.Proofs.Identifiers
import TypedSql.Proofs.ScriptFiles
import TypedSql.Proofs.ScriptLayout
import TypedSql.Proofs.Pagination
import TypedSql.Proofs.JsonPaths
import TypedSql.Proofs.Suggestions
