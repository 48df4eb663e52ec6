import FrontendAudit.Audit.Category
import FrontendAudit.Audit.Phase
import FrontendAudit.Audit.Run
import FrontendAudit.Config.Basic
import FrontendAudit.Config.Load
import FrontendAudit.Disk.Category
import FrontendAudit.Disk.Tree
import FrontendAudit.Disk.Walk
import FrontendAudit.Entry.Command
import FrontendAudit.Entry.Web
import FrontendAudit.Failure
import FrontendAudit.Finding.Basic
import FrontendAudit.Finding.Record
import FrontendAudit.Gate.Evaluation
import FrontendAudit.Gate.Format
import FrontendAudit.Gate.Platform
import FrontendAudit.Glob.Basic
import FrontendAudit.Glob.Brace
import FrontendAudit.Glob.Selection
import FrontendAudit.Host
import FrontendAudit.Http
import FrontendAudit.IssueLog
import FrontendAudit.Journal
import FrontendAudit.Json.Basic
import FrontendAudit.Json.Display
import FrontendAudit.Json.Misfit
import FrontendAudit.Json.Printer
import FrontendAudit.Json.Reader
import FrontendAudit.Lint.Conversion
import FrontendAudit.Lint.Exclusions
import FrontendAudit.Lint.Report
import FrontendAudit.Lint.Scan
import FrontendAudit.Lint.Settings
import FrontendAudit.Lint.Tool
import FrontendAudit.Main
import FrontendAudit.Number.Binary64
import FrontendAudit.Number.Decimal
import FrontendAudit.Page.CharacterName
import FrontendAudit.Page.Check
import FrontendAudit.Page.Fetch
import FrontendAudit.Page.Node
import FrontendAudit.Page.Reference
import FrontendAudit.Page.Spacing
import FrontendAudit.Page.Token
import FrontendAudit.Page.Tree
import FrontendAudit.Path
import FrontendAudit.Pattern.Basic
import FrontendAudit.Pattern.Build
import FrontendAudit.Pattern.Search
import FrontendAudit.Project.Audit
import FrontendAudit.Project.Kind
import FrontendAudit.Project.Manifest
import FrontendAudit.Report.Name
import FrontendAudit.Report.Page
import FrontendAudit.Report.Write
import FrontendAudit.Request
import FrontendAudit.Response
import FrontendAudit.Retry
import FrontendAudit.Rule.Accessibility.Check
import FrontendAudit.Rule.Accessibility.Detectors
import FrontendAudit.Rule.Accessibility.Landmarks
import FrontendAudit.Rule.Accessibility.Markup
import FrontendAudit.Rule.Performance.Asset
import FrontendAudit.Rule.Performance.AsyncRegion
import FrontendAudit.Rule.Performance.Detectors
import FrontendAudit.Rule.Registry
import FrontendAudit.Scan.Basic
import FrontendAudit.Scan.Batches
import FrontendAudit.Scan.Schedule
import FrontendAudit.Security.Review
import FrontendAudit.Security.Service
import FrontendAudit.Severity
import FrontendAudit.Shell.Run
import FrontendAudit.Shell.Script
import FrontendAudit.Snippet
import FrontendAudit.Source.Excerpt
import FrontendAudit.Source.File
import FrontendAudit.Source.Heading
import FrontendAudit.Summary
import FrontendAudit.Text.Blank
import FrontendAudit.Text.CodeRange
import FrontendAudit.Text.Encoding
import FrontendAudit.Text.Find
import FrontendAudit.Text.Integer
import FrontendAudit.Text.Lines
import FrontendAudit.Text.Printable
import FrontendAudit.Text.Quoted
import FrontendAudit.Text.Utf8
import FrontendAudit.Text.Word
import FrontendAudit.Url
import FrontendAudit.Url.HostName
import FrontendAudit.Validation.Basic
import FrontendAudit.Validation.Scalar
import FrontendAudit.World
import FrontendAudit.Xml.Element
import FrontendAudit.Proofs.Scan.Invariant
import FrontendAudit.Proofs.Scan.History
import FrontendAudit.Proofs.Scan.Batching
import FrontendAudit.Proofs.IssueLog.Kept
import FrontendAudit.Proofs.Scan.Turns
import FrontendAudit.Proofs.Audit.Scanning
import FrontendAudit.Proofs.Page.Fetch
import FrontendAudit.Proofs.Audit.Issues
import FrontendAudit.Proofs.Disk.Walk
import FrontendAudit.Proofs.Glob.Closing
import FrontendAudit.Proofs.Disk.Pruning
import FrontendAudit.Proofs.Security.Review
import FrontendAudit.Proofs.Summary
import FrontendAudit.Proofs.Security.Gate
import FrontendAudit.Proofs.Disk.Write
import FrontendAudit.Proofs.Fallible
import FrontendAudit.Proofs.Finding.Record
import FrontendAudit.Proofs.Json.Inline
import FrontendAudit.Proofs.Json.RoundTrip
import FrontendAudit.Proofs.Validation
import FrontendAudit.Proofs.IssueLog.Stream
import FrontendAudit.Proofs.Audit.Stream
import FrontendAudit.Proofs.Security.Readable
import FrontendAudit.Proofs.Security.Audit
import FrontendAudit.Proofs.Xml.Reader
import FrontendAudit.Proofs.Xml.RoundTrip
import FrontendAudit.Proofs.Xml.Document
import FrontendAudit.Proofs.Gate.Junit
import FrontendAudit.Proofs.Path
import FrontendAudit.Proofs.Disk.Filled
import FrontendAudit.Proofs.Audit.Agreement
import FrontendAudit.Proofs.Project.Plan
import FrontendAudit.Proofs.Project.Rerun
import FrontendAudit.Proofs.IssueLog.Life
import FrontendAudit.Proofs.Json.Keys
import FrontendAudit.Proofs.Json.Halves
import FrontendAudit.Proofs.Project.Response
import FrontendAudit.Proofs.Entry.Command
import FrontendAudit.Proofs.Report.Page
import FrontendAudit.Proofs.Gate.Counting
import FrontendAudit.Proofs.Finding.RoundTrip
import FrontendAudit.Proofs.Glob.Sets
import FrontendAudit.Proofs.Disk.Enumeration
import FrontendAudit.Proofs.Audit.Sight
import FrontendAudit.Proofs.Audit.Steps
import FrontendAudit.Proofs.Audit.Answers
import FrontendAudit.Proofs.Audit.Beside
import FrontendAudit.Proofs.Project.Categories
import FrontendAudit.Proofs.Disk.Differing
import FrontendAudit.Proofs.Disk.Endings
import FrontendAudit.Proofs.Audit.Refusals
import FrontendAudit.Proofs.Project.Refusals
import FrontendAudit.Proofs.Disk.Listing
import FrontendAudit.Proofs.Glob.Wildcards
import FrontendAudit.Proofs.Glob.Groups
import FrontendAudit.Proofs.Glob.Braces
import FrontendAudit.Proofs.Glob.Expansion
import FrontendAudit.Proofs.IssueLog.Flush
import FrontendAudit.Proofs.Audit.Phases
import FrontendAudit.Proofs.Disk.Ignoring
import FrontendAudit.Proofs.Glob.Plain
import FrontendAudit.Proofs.Disk.Entries
import FrontendAudit.Proofs.Gate.Growth
import FrontendAudit.Proofs.Retry
import FrontendAudit.Proofs.Lint.Report
import FrontendAudit.Proofs.Lint.Conversion
import FrontendAudit.Proofs.Lint.Scan
import FrontendAudit.Proofs.Text.Utf8
import FrontendAudit.Proofs.Text.Integer
import FrontendAudit.Proofs.Config.Load
import FrontendAudit.Proofs.Audit.Failures
import FrontendAudit.Proofs.Project.Outset
import FrontendAudit.Proofs.Project.Limits
import FrontendAudit.Proofs.Audit.Manifest
import FrontendAudit.Proofs.Project.Verdict
import FrontendAudit.Proofs.Number.Scaling
import FrontendAudit.Proofs.Retry.Calls
import FrontendAudit.Proofs.Page.Visits
import FrontendAudit.Proofs.Source.Excerpt
import FrontendAudit.Proofs.Rule.Registry
import FrontendAudit.Proofs.Rule.Accessibility.Scan
import FrontendAudit.Proofs.Source.Heading
import FrontendAudit.Proofs.Rule.Accessibility.Outline
import FrontendAudit.Proofs.Pattern.Search
import FrontendAudit.Proofs.Rule.Accessibility.Tags
import FrontendAudit.Proofs.Rule.Accessibility.Attributes
import FrontendAudit.Proofs.Rule.Accessibility.AltText
import FrontendAudit.Proofs.Rule.Accessibility.Order
import FrontendAudit.Proofs.Rule.Accessibility.Images
import FrontendAudit.Proofs.Pattern.Blank
import FrontendAudit.Proofs.Source.File
import FrontendAudit.Proofs.Rule.Performance.Scan
import FrontendAudit.Proofs.Rule.Scans
import FrontendAudit.Proofs.Rule.Accessibility.Components
import FrontendAudit.Proofs.Rule.Performance.Regions
import FrontendAudit.Proofs.Audit.Origins
import FrontendAudit.Proofs.Audit.Lines
import FrontendAudit.Proofs.Project.Lines
import FrontendAudit.Proofs.Security.Entries
import FrontendAudit.Proofs.Lint.Findings
