import WhatsVault.Library.Run
import WhatsVault.Library.Transaction
import WhatsVault.Library.WriteLock
import WhatsVault.Library.MaxRegister
import WhatsVault.Library.Table
import WhatsVault.Library.Mirror
import WhatsVault.Library.Bag
import WhatsVault.Library.Loop
import WhatsVault.Library.JoinFold
import WhatsVault.Library.Sections
import WhatsVault.Library.Tiling
import WhatsVault.Library.Timeline
import WhatsVault.Library.Checks
import WhatsVault.Library.Framing
import WhatsVault.Library.Ranking
import WhatsVault.Library.Intervals
import WhatsVault.Library.Regex
import WhatsVault.Library.MatchExpr
import WhatsVault.Library.FullText
import WhatsVault.Library.CharacterForms
import WhatsVault.Library.Program
import WhatsVault.Library.Durable
import WhatsVault.Library.Migration
import WhatsVault.Library.Paths
import WhatsVault.Library.FileTree
import WhatsVault.Library.JsonText
import WhatsVault.Library.UrlForm
import WhatsVault.Text
import WhatsVault.Json
import WhatsVault.Platform
import WhatsVault.TimeModel
import WhatsVault.Control.Schema
import WhatsVault.Control.Window
import WhatsVault.Approval.Canonical
import WhatsVault.Approval.SignedMessages
import WhatsVault.Approval.Policy
import WhatsVault.Approval.Drafts
import WhatsVault.Approval.Relay
import WhatsVault.Approval.Sender
import WhatsVault.Approval.Operations
import WhatsVault.Approval.Replay
import WhatsVault.Approval.Authorisation
import WhatsVault.Approval.FreeForm
import WhatsVault.Approval.Reconcile
import WhatsVault.Approval.Permission
import WhatsVault.Approval.Envelopes
import WhatsVault.Approval.Freeze
import WhatsVault.Approval.Transmission
import WhatsVault.Approval.Finality
import WhatsVault.Approval.Preparation
import WhatsVault.Approval.Correlation
import WhatsVault.Approval.Capabilities
import WhatsVault.Approval.MarkRead
import WhatsVault.Approval.Budgets
import WhatsVault.Approval.DisplayGuard
import WhatsVault.Approval.SealedDetail
import WhatsVault.Approval.Revocation
import WhatsVault.Crypto.Sealed
import WhatsVault.Crypto.Authenticity
import WhatsVault.Crypto.AtRest
import WhatsVault.Crypto.DeviceSeal
import WhatsVault.Vault.Schema
import WhatsVault.Search.Index
import WhatsVault.Search.Normalise
import WhatsVault.Search.Coherence
import WhatsVault.Search.Query
import WhatsVault.Search.Tiers
import WhatsVault.Search.Syntax
import WhatsVault.Search.Hits
import WhatsVault.Search.Maintenance
import WhatsVault.Search.Snippet
import WhatsVault.Search.Equivalence
import WhatsVault.Ingest.Normalise
import WhatsVault.Ingest.Status
import WhatsVault.Ingest.StatusLattice
import WhatsVault.Ingest.Consumer
import WhatsVault.Ingest.DedupKeys
import WhatsVault.Ingest.Effects
import WhatsVault.Ingest.ExactlyOnce
import WhatsVault.Ingest.FailedIndexing
import WhatsVault.Ingest.WindowProjection
import WhatsVault.Ingest.WindowRepair
import WhatsVault.Ingest.Disposition
import WhatsVault.Ingest.LeaseEnds
import WhatsVault.Ingest.KeyHealth
import WhatsVault.Ingest.Blindness
import WhatsVault.Importers.Fingerprint
import WhatsVault.Importers.Grammar
import WhatsVault.Importers.Parse
import WhatsVault.Importers.Totality
import WhatsVault.Importers.Lines
import WhatsVault.Importers.Spans
import WhatsVault.Importers.HeaderShape
import WhatsVault.Importers.Bodies
import WhatsVault.Importers.HeaderAgreement
import WhatsVault.Importers.Export
import WhatsVault.Importers.LocalTime
import WhatsVault.Importers.Effects
import WhatsVault.Importers.Union
import WhatsVault.Importers.FirstImport
import WhatsVault.Importers.DryRun
import WhatsVault.Importers.Artefacts
import WhatsVault.Importers.SendAuthority
import WhatsVault.Importers.Indexing
import WhatsVault.Importers.ZipGuard
import WhatsVault.Mcp.OAuth
import WhatsVault.Mcp.OffSwitch
import WhatsVault.Mcp.Lineage
import WhatsVault.Mcp.Rotation
import WhatsVault.Mcp.Families
import WhatsVault.Mcp.Collection
import WhatsVault.Mcp.Storage
import WhatsVault.Mcp.Concurrency
import WhatsVault.Mcp.HttpAuth
import WhatsVault.Mcp.OAuthHttp
import WhatsVault.Mcp.HttpFailures
import WhatsVault.Mcp.Deployment
import WhatsVault.Mcp.Redirects
import WhatsVault.Mcp.Present
import WhatsVault.Mcp.Reads
import WhatsVault.Mcp.DeliveryStatus
import WhatsVault.Mcp.Fence
import WhatsVault.Mcp.Projections
import WhatsVault.Mcp.Response
import WhatsVault.Mcp.Audit
import WhatsVault.Mcp.GrantStatements
import WhatsVault.Mcp.GrantAudit
import WhatsVault.HashedContent
import WhatsVault.Ops.Migrations
import WhatsVault.Ops.Bootstrap
import WhatsVault.Ops.Interrupted
import WhatsVault.Ops.FirstRun
import WhatsVault.Ops.Readiness
import WhatsVault.Library.Markup
import WhatsVault.Mcp.ConsentPage
