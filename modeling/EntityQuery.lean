import EntityQuery.Calendar.Date
import EntityQuery.Calendar.Reader
import EntityQuery.Calendar.Timestamp
import EntityQuery.CommandLine.Arguments
import EntityQuery.CommandLine.Help
import EntityQuery.CommandLine.Run
import EntityQuery.Decimal.Layout
import EntityQuery.Decimal.Shortest
import EntityQuery.Dictionary
import EntityQuery.Instance.Basic
import EntityQuery.Instance.Property
import EntityQuery.Json.Basic
import EntityQuery.Json.Document
import EntityQuery.Json.Lexeme
import EntityQuery.Json.Node
import EntityQuery.Json.Numeral
import EntityQuery.Json.Printer
import EntityQuery.Main
import EntityQuery.Mapping.AliasTable
import EntityQuery.Mapping.Aliases
import EntityQuery.Mapping.Error
import EntityQuery.Mapping.Expansion
import EntityQuery.Mapping.Mutation
import EntityQuery.Mapping.Path
import EntityQuery.Mapping.Query
import EntityQuery.Mapping.SelectClause
import EntityQuery.Mapping.TableClause
import EntityQuery.Query.Clauses
import EntityQuery.Query.Literal
import EntityQuery.Query.SelectList
import EntityQuery.Query.Token
import EntityQuery.Schema.Document
import EntityQuery.Schema.Entity
import EntityQuery.Schema.Registry
import EntityQuery.Schema.Store
import EntityQuery.Sql.Dialect
import EntityQuery.Sql.Expr
import EntityQuery.Sql.Statement
import EntityQuery.Text.Blank
import EntityQuery.Text.Digit
import EntityQuery.Text.Letter
import EntityQuery.Text.Lowercase
import EntityQuery.Text.Word
import EntityQuery.Value.Basic
import EntityQuery.Value.Document
import EntityQuery.Value.Uuid
import EntityQuery.Proofs.Aliases.Entries
import EntityQuery.Proofs.Aliases.Hops
import EntityQuery.Proofs.Outcome
import EntityQuery.Proofs.Resolution.Paths
import EntityQuery.Proofs.Resolution.Expansion
import EntityQuery.Proofs.Resolution.SelectClause
import EntityQuery.Proofs.Resolution.TableClause
import EntityQuery.Proofs.Resolution.Query
import EntityQuery.Proofs.Tables.Introduction
import EntityQuery.Proofs.Tables.Scope
import EntityQuery.Proofs.Expansion.Completeness
import EntityQuery.Proofs.Expansion.CallStack
import EntityQuery.Proofs.Tables.Forest
import EntityQuery.Proofs.Tables.Scan
import EntityQuery.Proofs.Tables.Grammar
import EntityQuery.Proofs.SelectList.Literals
import EntityQuery.Proofs.SelectList.Calls
import EntityQuery.Proofs.Growth.LargerSchema
import EntityQuery.Proofs.Growth.LongerQuery
import EntityQuery.Proofs.Tables.Addressing
import EntityQuery.Proofs.Text.Pieces
import EntityQuery.Proofs.SelectList.Slices
import EntityQuery.Proofs.Clauses.NormalForm
import EntityQuery.Proofs.Clauses.Keywords
import EntityQuery.Proofs.Clauses.Layout
import EntityQuery.Proofs.Tokens.Lexing
import EntityQuery.Proofs.Tokens.Places
import EntityQuery.Proofs.Renaming.Spelling
import EntityQuery.Proofs.Renaming.Tokens
import EntityQuery.Proofs.Renaming.Resolution
import EntityQuery.Proofs.Renaming.TableClause
import EntityQuery.Proofs.Renaming.Arguments
import EntityQuery.Proofs.Renaming.SelectList
import EntityQuery.Proofs.Renaming.SelectClause
import EntityQuery.Proofs.Renaming.Layout
import EntityQuery.Proofs.Renaming.Query
import EntityQuery.Proofs.Aliases.Log
import EntityQuery.Proofs.Aliases.Table
import EntityQuery.Proofs.LooseKeys.Schema
import EntityQuery.Proofs.Resolution.Graph
import EntityQuery.Proofs.LooseKeys.Query
import EntityQuery.Proofs.LooseKeys.Mutation
import EntityQuery.Proofs.Tokens.Literals
import EntityQuery.Query.Lexer
import EntityQuery.Proofs.Tokens.Lexer
import EntityQuery.Proofs.Tokens.Spans
import EntityQuery.Proofs.Tokens.NormalForm
import EntityQuery.Proofs.Clauses.Gluing
import EntityQuery.Proofs.Resolution.Repetition
import EntityQuery.Proofs.SelectList.Copies
import EntityQuery.Proofs.Growth.RepeatedItems
import EntityQuery.Proofs.Clauses.Solid
import EntityQuery.Proofs.Text.Lowercase
import EntityQuery.Proofs.Tokens.Spacing
import EntityQuery.Proofs.Resolution.Conditions
import EntityQuery.Proofs.SelectList.NormalForm
import EntityQuery.Proofs.Resolution.NormalForm
import EntityQuery.Proofs.Text.Octets
import EntityQuery.Proofs.Schema.Validation
import EntityQuery.Proofs.Schema.Stores
import EntityQuery.Proofs.Schema.Registration
import EntityQuery.Proofs.Resolution.Faults
import EntityQuery.Proofs.Resolution.Errors
import EntityQuery.Proofs.SelectList.Splitting
import EntityQuery.Proofs.SelectList.OutputNames
import EntityQuery.Proofs.Clauses.Stretches
import EntityQuery.Proofs.Tables.Groups
import EntityQuery.Proofs.Mutations.Literals
import EntityQuery.Proofs.Mutations.Updates
import EntityQuery.Proofs.Mutations.Inserts
import EntityQuery.Proofs.Text.Joined
import EntityQuery.Proofs.Mutations.Dependence
import EntityQuery.Proofs.Mutations.QuotedTexts
import EntityQuery.Proofs.Text.Digits
import EntityQuery.Proofs.Dialects.Windows
import EntityQuery.Proofs.Json.Lexemes
import EntityQuery.Proofs.Json.Literals
import EntityQuery.Proofs.Json.Printing
import EntityQuery.Proofs.Json.Records
import EntityQuery.Proofs.Schema.Documents
import EntityQuery.Proofs.Mutations.Integers
import EntityQuery.Proofs.CommandLine.Reports
