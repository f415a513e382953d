import RequestWriter.Api.Content
import RequestWriter.Api.Declarations
import RequestWriter.Api.Endpoint
import RequestWriter.Api.Load
import RequestWriter.Api.Operations
import RequestWriter.Api.Servers
import RequestWriter.Body
import RequestWriter.Calendar
import RequestWriter.Catalog
import RequestWriter.Checked
import RequestWriter.CommandLine.Command
import RequestWriter.CommandLine.Console
import RequestWriter.CommandLine.Outcome
import RequestWriter.CommandLine.Reach
import RequestWriter.CommandLine.Reading
import RequestWriter.CommandLine.Run
import RequestWriter.CommandLine.Toolkit
import RequestWriter.CommandLine.Usage
import RequestWriter.CommandLine.Words
import RequestWriter.Configuration
import RequestWriter.Credential
import RequestWriter.Decimal.Notation
import RequestWriter.Decimal.Shortest
import RequestWriter.Double
import RequestWriter.Entries
import RequestWriter.Fault
import RequestWriter.Files.Path
import RequestWriter.Files.Tree
import RequestWriter.Files.Workspace
import RequestWriter.Headers
import RequestWriter.Json.Halves
import RequestWriter.Json.Printer
import RequestWriter.Json.Reader
import RequestWriter.Literal.Dialect
import RequestWriter.Literal.Render
import RequestWriter.Log
import RequestWriter.Main
import RequestWriter.Parameter
import RequestWriter.Proofs.Api.JsonDocument
import RequestWriter.Proofs.Api.Operations
import RequestWriter.Proofs.Api.Parameters
import RequestWriter.Proofs.Api.Schemas
import RequestWriter.Proofs.Api.SharedDeclarations
import RequestWriter.Proofs.Catalog
import RequestWriter.Proofs.Chain
import RequestWriter.Proofs.Checked
import RequestWriter.Proofs.CommandLine.Code
import RequestWriter.Proofs.CommandLine.Inserted
import RequestWriter.Proofs.CommandLine.Named
import RequestWriter.Proofs.CommandLine.Outcome
import RequestWriter.Proofs.CommandLine.Output
import RequestWriter.Proofs.CommandLine.Words
import RequestWriter.Proofs.Configuration
import RequestWriter.Proofs.Credential
import RequestWriter.Proofs.Decimal.Interval
import RequestWriter.Proofs.Decimal.Rounding
import RequestWriter.Proofs.Decimal.Shortest
import RequestWriter.Proofs.Decimal.Spelling
import RequestWriter.Proofs.Entries
import RequestWriter.Proofs.Files.Reading
import RequestWriter.Proofs.Files.Saving
import RequestWriter.Proofs.Headers
import RequestWriter.Proofs.Independence
import RequestWriter.Proofs.Json.Acceptance
import RequestWriter.Proofs.Json.Chars
import RequestWriter.Proofs.Json.Compact
import RequestWriter.Proofs.Json.Denoted
import RequestWriter.Proofs.Json.Grammar
import RequestWriter.Proofs.Json.Indented
import RequestWriter.Proofs.Json.Integer
import RequestWriter.Proofs.Json.Literal
import RequestWriter.Proofs.Json.Nesting
import RequestWriter.Proofs.Json.Number
import RequestWriter.Proofs.Json.Portable
import RequestWriter.Proofs.Json.Reading
import RequestWriter.Proofs.Json.Sequence
import RequestWriter.Proofs.Json.Tight
import RequestWriter.Proofs.Json.Token
import RequestWriter.Proofs.Literal.Bound
import RequestWriter.Proofs.Literal.Cut
import RequestWriter.Proofs.Literal.Layout
import RequestWriter.Proofs.Literal.Passes
import RequestWriter.Proofs.Literal.Quotation
import RequestWriter.Proofs.Literal.Quoted
import RequestWriter.Proofs.Literal.Reader
import RequestWriter.Proofs.Literal.RoundTrip
import RequestWriter.Proofs.Loading
import RequestWriter.Proofs.Refusal
import RequestWriter.Proofs.Runner
import RequestWriter.Proofs.Schema.Conformance
import RequestWriter.Proofs.Schema.Display
import RequestWriter.Proofs.Schema.Failure
import RequestWriter.Proofs.Schema.Refinement
import RequestWriter.Proofs.Schema.Walk
import RequestWriter.Proofs.Shell.Command
import RequestWriter.Proofs.Shell.Escaped
import RequestWriter.Proofs.Shell.PowerShell
import RequestWriter.Proofs.Shell.Tokens
import RequestWriter.Proofs.Shell.Words
import RequestWriter.Proofs.Snippet.Accepted
import RequestWriter.Proofs.Snippet.Agreement
import RequestWriter.Proofs.Snippet.Closed
import RequestWriter.Proofs.Snippet.Composition
import RequestWriter.Proofs.Snippet.Containment
import RequestWriter.Proofs.Snippet.Cut
import RequestWriter.Proofs.Snippet.Declaration
import RequestWriter.Proofs.Snippet.Parsing
import RequestWriter.Proofs.Snippet.Payload
import RequestWriter.Proofs.Snippet.Python
import RequestWriter.Proofs.Snippet.Ruby
import RequestWriter.Proofs.Snippet.Scan
import RequestWriter.Proofs.Snippet.Syntax
import RequestWriter.Proofs.Text.Base64
import RequestWriter.Proofs.Text.LineEnds
import RequestWriter.Proofs.Text.Percent
import RequestWriter.Proofs.Text.Search
import RequestWriter.Proofs.Text.Utf8
import RequestWriter.Proofs.Url.Inferred
import RequestWriter.Proofs.Url.Path
import RequestWriter.Proofs.Url.Query
import RequestWriter.Proofs.Url.Template
import RequestWriter.Proofs.Value.Parts
import RequestWriter.Proofs.Yaml.Cursor
import RequestWriter.Proofs.Yaml.Flow
import RequestWriter.Proofs.Yaml.Lexer
import RequestWriter.Proofs.Yaml.Load
import RequestWriter.Proofs.Yaml.Node
import RequestWriter.Proofs.Yaml.Number
import RequestWriter.Proofs.Yaml.Plain
import RequestWriter.Proofs.Yaml.Portable
import RequestWriter.Proofs.Yaml.Quoted
import RequestWriter.Proofs.Yaml.Reading
import RequestWriter.Proofs.Yaml.Scalar
import RequestWriter.Request
import RequestWriter.Runner
import RequestWriter.Schema.Example
import RequestWriter.Shell
import RequestWriter.Snippet.Basic
import RequestWriter.Snippet.Closed
import RequestWriter.Snippet.JavaScript
import RequestWriter.Snippet.Library
import RequestWriter.Snippet.Parser
import RequestWriter.Snippet.Payload
import RequestWriter.Snippet.Python
import RequestWriter.Snippet.Ruby
import RequestWriter.Text.Base64
import RequestWriter.Text.Basic
import RequestWriter.Text.Blank
import RequestWriter.Text.Casing
import RequestWriter.Text.Casing.Table
import RequestWriter.Text.Hexadecimal
import RequestWriter.Text.Marked
import RequestWriter.Text.Percent
import RequestWriter.Text.Printable
import RequestWriter.Text.Printable.Table
import RequestWriter.Text.Utf8
import RequestWriter.Url
import RequestWriter.Value
import RequestWriter.Value.Access
import RequestWriter.Value.Display
import RequestWriter.Yaml.Block
import RequestWriter.Yaml.Cursor
import RequestWriter.Yaml.Lexer
import RequestWriter.Yaml.Load
import RequestWriter.Yaml.Loader
import RequestWriter.Yaml.Moment
import RequestWriter.Yaml.Names
import RequestWriter.Yaml.Node
import RequestWriter.Yaml.Number
import RequestWriter.Yaml.Plain
import RequestWriter.Yaml.Quoted
import RequestWriter.Yaml.Scalar
import RequestWriter.Yaml.Tag
import RequestWriter.Yaml.Token
