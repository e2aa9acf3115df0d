import QueryFilter.Clause.Json
import QueryFilter.Config.Toml
import QueryFilter.Sql.Query
import QueryFilter.Proofs.Grammar
import QueryFilter.Proofs.Parsing.Steps
import QueryFilter.Proofs.Parsing.Reading
import QueryFilter.Proofs.Parsing.Consumed
import QueryFilter.Proofs.Parsing
import QueryFilter.Proofs.Truth
import QueryFilter.Proofs.Walk
import QueryFilter.Proofs.Whitelist
import QueryFilter.Proofs.Sql.Scan
import QueryFilter.Proofs.Sql.Pieces
import QueryFilter.Proofs.Sql.Rendering
import QueryFilter.Proofs.Source
import QueryFilter.Proofs.Combination
import QueryFilter.Proofs.Parsing.Recasting
import QueryFilter.Proofs.Noninterference
import QueryFilter.Proofs.Sql.Placeholders
import QueryFilter.Proofs.Sql.Delimited
import QueryFilter.Proofs.Sql.Unambiguous
import QueryFilter.Proofs.Parsing.Limits
import QueryFilter.Proofs.Parsing.Incomplete
import QueryFilter.Proofs.Growth
import QueryFilter.Proofs.Toml.Quoted
import QueryFilter.Proofs.Toml.Scalar
import QueryFilter.Proofs.Toml.Tables
import QueryFilter.Proofs.Toml.Range
import QueryFilter.Proofs.Config.Written
import QueryFilter.Proofs.Config.Tables
import QueryFilter.Proofs.Config.Roundtrip
import QueryFilter.Proofs.Rebuilding
import QueryFilter.Proofs.Lexing.Escapes
import QueryFilter.Proofs.Lexing.Rereading
import QueryFilter.Proofs.Lexing.Partition
import QueryFilter.Proofs.Lexing.Calls
import QueryFilter.Proofs.Lexing.Longest
import QueryFilter.Proofs.Lexing.Blanks
import QueryFilter.Proofs.Lexing.Strings
import QueryFilter.Proofs.Parsing.Joining
import QueryFilter.Proofs.Respelling
import QueryFilter.Proofs.Sql.Filled
import QueryFilter.Proofs.Bounds
import QueryFilter.Proofs.Matching
import QueryFilter.Proofs.Binary64.Overflow
import QueryFilter.Proofs.NullBindings
import QueryFilter.Proofs.BadCalls
import QueryFilter.Proofs.UnknownKeys
import QueryFilter.Proofs.Parsing.Parentheses
import QueryFilter.Proofs.ErrorPositions
import QueryFilter.Proofs.Parsing.Subjects
import QueryFilter.Proofs.Quotations
import QueryFilter.Proofs.Lexing.Resuming
import QueryFilter.Proofs.Text.EditDistance
import QueryFilter.Proofs.Suggestions
import QueryFilter.Proofs.Binary64.Exact
import QueryFilter.Proofs.LiteralText
import QueryFilter.Proofs.Json.Numbers
import QueryFilter.Proofs.Json.Unambiguous
import QueryFilter.Proofs.Json.Clauses
import QueryFilter.Proofs.Parsing.Descent
import QueryFilter.Proofs.Parsing.Lockstep
import QueryFilter.Proofs.Parsing.Levels
import QueryFilter.Proofs.Parsing.Agreement
import QueryFilter.Proofs.Parsing.Counters
