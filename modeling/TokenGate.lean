import TokenGate.Main
import TokenGate.Proofs.Text.Utf8
import TokenGate.Proofs.Text.Base64Url
import TokenGate.Proofs.Json.Members
import TokenGate.Proofs.Json.Edits
import TokenGate.Proofs.Json.Entries
import TokenGate.Proofs.Json.Trees
import TokenGate.Proofs.Json.Records
import TokenGate.Proofs.Json.Literals
import TokenGate.Proofs.Json.Numerals
import TokenGate.Proofs.Json.PrintedNumbers
import TokenGate.Proofs.Json.Grammar
import TokenGate.Proofs.Json.Lexemes
import TokenGate.Proofs.Json.PrintedTokens
import TokenGate.Proofs.Json.Controls
import TokenGate.Proofs.Token.Routing
import TokenGate.Proofs.Token.Acceptance
import TokenGate.Proofs.Token.Minted
import TokenGate.Proofs.Token.WireShape
import TokenGate.Proofs.Http.Fetch
import TokenGate.Proofs.Time.Civil
import TokenGate.Proofs.Time.Reader
import TokenGate.Proofs.Identity.RoundTrip
import TokenGate.Proofs.Settings.RoundTrip
import TokenGate.Proofs.Settings.Entries
import TokenGate.Proofs.Settings.Records
import TokenGate.Proofs.Settings.Sources
import TokenGate.Proofs.Settings.Layers
import TokenGate.Proofs.Settings.Fields
import TokenGate.Proofs.Settings.Precedence
import TokenGate.Proofs.Verify.Verdict
import TokenGate.Proofs.Verify.Expiry
import TokenGate.Proofs.Verify.Acceptance
import TokenGate.Proofs.Verify.Contract
import TokenGate.Proofs.Verify.Conditions
import TokenGate.Proofs.Key.Lookup
import TokenGate.Proofs.Key.Selection
import TokenGate.Proofs.Key.Fetching
import TokenGate.Proofs.Key.Transparency
import TokenGate.Proofs.Key.Freshness
import TokenGate.Proofs.Key.SingleFlight
import TokenGate.Proofs.Key.Removal
import TokenGate.Proofs.Registry.History
import TokenGate.Proofs.Registry.Discovery
import TokenGate.Proofs.Registry.Loading
import TokenGate.Proofs.Registry.Trust
import TokenGate.Proofs.Registry.Defects
import TokenGate.Proofs.Settings.Overrides
import TokenGate.Proofs.Registry.Isolation
import TokenGate.Proofs.Registry.Filing
import TokenGate.Proofs.Auth.Groups
import TokenGate.Proofs.Auth.Soundness
import TokenGate.Proofs.Auth.Impersonation
import TokenGate.Proofs.Auth.Transparency
import TokenGate.Proofs.Auth.Completeness
import TokenGate.Proofs.Verify.Modes
import TokenGate.Proofs.Auth.Requests
import TokenGate.Proofs.Auth.Failures
import TokenGate.Proofs.Auth.Repetition
import TokenGate.Proofs.Auth.AuditLines
import TokenGate.Proofs.Auth.Misfiling
import TokenGate.Proofs.Auth.Passage
import TokenGate.Proofs.Server.Guard
import TokenGate.Proofs.Server.Routes
import TokenGate.Proofs.Server.Auditing
