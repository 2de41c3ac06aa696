import AuditPanel.Main
import AuditPanel.Server.Router
import AuditPanel.Proofs.Audit.StaticFindings
import AuditPanel.Proofs.Consensus.Permutation
import AuditPanel.Proofs.Consensus.Provenance
import AuditPanel.Proofs.Audit.Verdict
import AuditPanel.Proofs.Json.Reader
import AuditPanel.Proofs.Json.Lookahead
import AuditPanel.Proofs.Review.Braces
import AuditPanel.Proofs.Review.Prose
import AuditPanel.Proofs.Audit.CacheKey
import AuditPanel.Proofs.Audit.Cache
import AuditPanel.Proofs.Audit.History
import AuditPanel.Proofs.Audit.Transparency
import AuditPanel.Proofs.Source.Blanking
import AuditPanel.Proofs.Source.Noninterference
import AuditPanel.Proofs.Source.Extraction
import AuditPanel.Proofs.Audit.Outcome
import AuditPanel.Proofs.Panel.Course
import AuditPanel.Proofs.Panel.Isolation
import AuditPanel.Proofs.Source.Declarations
import AuditPanel.Proofs.Config.Soundness
import AuditPanel.Proofs.Server.Disclosure
import AuditPanel.Proofs.Time.Text
import AuditPanel.Proofs.Decimal.Shortest
import AuditPanel.Proofs.Json.Numbers
import AuditPanel.Proofs.Json.Restored
import AuditPanel.Proofs.Finding.Record
import AuditPanel.Proofs.Report.Record
import AuditPanel.Proofs.Report.Roundtrip
import AuditPanel.Proofs.Json.Framing
import AuditPanel.Proofs.Report.Trail
import AuditPanel.Proofs.Json.Range
import AuditPanel.Proofs.Audit.OrderedReport
import AuditPanel.Proofs.Server.Register
import AuditPanel.Proofs.Review.Schema
import AuditPanel.Proofs.Consensus.Contributors
import AuditPanel.Proofs.Json.Keyed
import AuditPanel.Proofs.Review.Nulls
import AuditPanel.Proofs.Consensus.Listing
import AuditPanel.Proofs.Audit.Credit
import AuditPanel.Proofs.Audit.Consistency
import AuditPanel.Proofs.Consensus.Taxonomy
import AuditPanel.Proofs.Finding.Name
import AuditPanel.Proofs.Source.Unchecked
import AuditPanel.Proofs.Source.Snippets
import AuditPanel.Proofs.Source.InPlace
import AuditPanel.Proofs.Bytecode.Scan
import AuditPanel.Proofs.Panel.Series
import AuditPanel.Proofs.Panel.Attribution
import AuditPanel.Proofs.Review.Selection
import AuditPanel.Proofs.Source.Appended
import AuditPanel.Proofs.Source.Header
import AuditPanel.Proofs.Source.Attributes
import AuditPanel.Proofs.Source.Parameters
import AuditPanel.Proofs.Source.Spacing
import AuditPanel.Proofs.Source.StateVariable
import AuditPanel.Proofs.Source.QuietLines
import AuditPanel.Proofs.Source.Depth
import AuditPanel.Proofs.Source.HeaderLayout
import AuditPanel.Proofs.Source.Inheritance
import AuditPanel.Proofs.Source.Identifiers
import AuditPanel.Proofs.Prompt.Template
import AuditPanel.Proofs.Prompt.Library
import AuditPanel.Proofs.Prompt.Excerpt
import AuditPanel.Proofs.Chain.Explorer
import AuditPanel.Proofs.Consensus.Advice
import AuditPanel.Proofs.Audit.CacheCalls
import AuditPanel.Proofs.Review.LineRanges
import AuditPanel.Proofs.Review.Pairs
