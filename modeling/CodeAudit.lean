import CodeAudit.Analysis.Battery
import CodeAudit.Analysis.Support
import CodeAudit.Bundle
import CodeAudit.Cache.Result
import CodeAudit.Cache.Store
import CodeAudit.Clock
import CodeAudit.CommandLine.Arguments
import CodeAudit.CommandLine.Run
import CodeAudit.Confidence.Basic
import CodeAudit.Confidence.RiskMarker
import CodeAudit.Decimal.Basic
import CodeAudit.Decimal.Shortest
import CodeAudit.Decimal.Style
import CodeAudit.Digest
import CodeAudit.Disk.Basic
import CodeAudit.Disk.Edit
import CodeAudit.Engine
import CodeAudit.Finding.Basic
import CodeAudit.Finding.Kind
import CodeAudit.Finding.Vulnerability
import CodeAudit.Function.Basic
import CodeAudit.Function.Listing
import CodeAudit.Function.Signature
import CodeAudit.Glob
import CodeAudit.Json
import CodeAudit.Language.Basic
import CodeAudit.Main
import CodeAudit.Path
import CodeAudit.Pattern.Basic
import CodeAudit.Pattern.Build
import CodeAudit.Proofs.Cache.Contents
import CodeAudit.Proofs.Cache.Interleaving
import CodeAudit.Proofs.Cache.Replay
import CodeAudit.Proofs.CommandLine.Origin
import CodeAudit.Proofs.Confidence.Eligibility
import CodeAudit.Proofs.Disk.Leads
import CodeAudit.Proofs.Engine.AutoFix
import CodeAudit.Proofs.Engine.Confidence
import CodeAudit.Proofs.Engine.Expiry
import CodeAudit.Proofs.Engine.History
import CodeAudit.Proofs.Engine.Key
import CodeAudit.Proofs.Engine.Transparency
import CodeAudit.Proofs.Number.Arithmetic
import CodeAudit.Proofs.Number.Finite
import CodeAudit.Proofs.Number.Order
import CodeAudit.Proofs.Path.Spelling
import CodeAudit.Proofs.Pattern.Found
import CodeAudit.Proofs.Pattern.Reach
import CodeAudit.Proofs.Quality.Fresh
import CodeAudit.Proofs.Quality.Selection
import CodeAudit.Proofs.Search.Answers
import CodeAudit.Proofs.Search.Coverage
import CodeAudit.Proofs.Search.Key
import CodeAudit.Proofs.Search.Rename
import CodeAudit.Proofs.Search.Walk
import CodeAudit.Proofs.Search.Worker
import CodeAudit.Proofs.Security.Confidence
import CodeAudit.Proofs.Security.Merging
import CodeAudit.Proofs.Security.Redaction
import CodeAudit.Proofs.Security.Report
import CodeAudit.Proofs.Text.Bytes
import CodeAudit.Proofs.Text.Trim
import CodeAudit.Proofs.Tree.Visits
import CodeAudit.Proofs.Validation.References
import CodeAudit.Proofs.Validation.Schedule
import CodeAudit.Proofs.Validation.Searches
import CodeAudit.Proofs.Validation.Settle
import CodeAudit.Quality.Delimiter
import CodeAudit.Quality.Duplicate
import CodeAudit.Quality.MissingAwait
import CodeAudit.Quality.Orphan
import CodeAudit.Quality.Profile
import CodeAudit.Quality.SilentHandler
import CodeAudit.Quality.Unreachable
import CodeAudit.Quality.Unused
import CodeAudit.Report.Data
import CodeAudit.Report.Document
import CodeAudit.Report.Paint
import CodeAudit.Report.Pretty
import CodeAudit.Search.Basic
import CodeAudit.Search.Cache
import CodeAudit.Security.Command
import CodeAudit.Security.Crypto
import CodeAudit.Security.Middleware
import CodeAudit.Security.Scripting
import CodeAudit.Security.Secret
import CodeAudit.Security.Splice
import CodeAudit.Security.Sql
import CodeAudit.Selector
import CodeAudit.Settings.Basic
import CodeAudit.Settings.File
import CodeAudit.Snippet
import CodeAudit.Text.Basic
import CodeAudit.Text.Case
import CodeAudit.Text.Literal
import CodeAudit.Text.Property
import CodeAudit.Text.Quoted
import CodeAudit.Text.Table
import CodeAudit.Tree.Basic
import CodeAudit.Tree.Site
import CodeAudit.Tree.Walk
import CodeAudit.Validation.Batch
import CodeAudit.Validation.Check
import CodeAudit.Yaml.Basic
import CodeAudit.Yaml.Reader
import CodeAudit.Yaml.Scalar
import CodeAudit.Proofs.Security.Winners
import CodeAudit.Proofs.Quality.Definitions
import CodeAudit.Proofs.Security.Query
import CodeAudit.Proofs.Quality.Listing
import CodeAudit.Proofs.Quality.Unread
import CodeAudit.Proofs.Quality.Orphans
import CodeAudit.Proofs.Quality.Await
import CodeAudit.Proofs.Quality.Scopes
import CodeAudit.Proofs.Quality.Mismatches
import CodeAudit.Proofs.Quality.DeadCode
import CodeAudit.Proofs.Security.Middleware
import CodeAudit.Proofs.Function.Extraction
import CodeAudit.Proofs.Number.Rounding
import CodeAudit.Proofs.Number.Sums
import CodeAudit.Proofs.Pattern.Surroundings
import CodeAudit.Proofs.Confidence.Statement
import CodeAudit.Proofs.Confidence.Markers
import CodeAudit.Proofs.Engine.Generated
import CodeAudit.Proofs.Security.Templates
import CodeAudit.Proofs.Security.Literals
import CodeAudit.Proofs.Security.Bindings
import CodeAudit.Proofs.Engine.Spelling
import CodeAudit.Proofs.Security.LineNumbers
