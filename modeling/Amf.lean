import Amf.Access
import Amf.Api
import Amf.Binary64
import Amf.Bitrate
import Amf.Clock
import Amf.Config
import Amf.Context.Basic
import Amf.Context.Leg
import Amf.Context.Parked
import Amf.Context.Session
import Amf.Context.Ue
import Amf.Delivery
import Amf.Deregistration
import Amf.Document.Basic
import Amf.Document.Catalogue
import Amf.Document.Notification
import Amf.Document.Relocation
import Amf.Document.Transfer
import Amf.Event
import Amf.Fault
import Amf.Identity
import Amf.Json.Basic
import Amf.Json.Document
import Amf.Json.Named
import Amf.Json.Text
import Amf.Main
import Amf.Metrics
import Amf.Nas
import Amf.Net.Address
import Amf.Net.Client
import Amf.Net.Origin
import Amf.Net.Uri
import Amf.Ngap
import Amf.Octets
import Amf.Outbound
import Amf.Paging
import Amf.Procedure
import Amf.Rat
import Amf.Release
import Amf.Relocation
import Amf.Request
import Amf.Routing
import Amf.Security
import Amf.Slice
import Amf.Subscription.Notification
import Amf.Subscription.Policy
import Amf.Table
import Amf.Text.Base64
import Amf.Text.Blank
import Amf.Text.Decimal
import Amf.Text.Numeral
import Amf.Text.Pieces
import Amf.Timer
import Amf.Transfer
import Amf.Yaml.Basic
import Amf.Yaml.BlockText
import Amf.Yaml.Document
import Amf.Yaml.Glyph
import Amf.Yaml.Node
import Amf.Yaml.Plain
import Amf.Yaml.Quoted
import Amf.Yaml.Scalar
import Amf.Yaml.Tag
import Amf.Yaml.Token
import Amf.Proofs.Execution
import Amf.Proofs.Step
import Amf.Proofs.Procedures
import Amf.Proofs.Course
import Amf.Proofs.Register
import Amf.Proofs.Operation
import Amf.Proofs.Identities
import Amf.Proofs.Legs
import Amf.Proofs.Connections
import Amf.Proofs.Provisioned
import Amf.Proofs.Attended
import Amf.Proofs.Awaited
import Amf.Proofs.Store
import Amf.Proofs.Fate
import Amf.Proofs.Held
import Amf.Proofs.FirstSetup
import Amf.Proofs.Addressed
import Amf.Proofs.Integrity
import Amf.Proofs.Conjunction
import Amf.Proofs.Expiries
import Amf.Proofs.Rejected
import Amf.Proofs.Joined
import Amf.Proofs.Deferred
import Amf.Proofs.Isolation
import Amf.Proofs.Departure
import Amf.Proofs.KeyMaterial
import Amf.Proofs.Ledger
import Amf.Proofs.Budget
import Amf.Proofs.Handover
import Amf.Proofs.Timely
import Amf.Proofs.Registry
import Amf.Proofs.Atomic
import Amf.Proofs.Backed
import Amf.Proofs.Committed
import Amf.Proofs.Numerals
import Amf.Proofs.Patched
import Amf.Proofs.Rates
import Amf.Proofs.Followed
import Amf.Proofs.Guarded
import Amf.Proofs.Abiding
import Amf.Proofs.Repeated
import Amf.Proofs.Retried
import Amf.Proofs.Format
import Amf.Proofs.Framing
import Amf.Proofs.Composition
import Amf.Proofs.WellFormed
import Amf.Proofs.Unambiguous
import Amf.Proofs.Effects
import Amf.Proofs.Accounts
import Amf.Proofs.Lossless
import Amf.Proofs.Responses
import Amf.Proofs.Location
import Amf.Proofs.Authorities
import Amf.Proofs.OwnUris
import Amf.Proofs.Hosts
import Amf.Proofs.Sharing
import Amf.Proofs.Capacity
import Amf.Proofs.Distinct
