import WebLoginRelay.Constants
import WebLoginRelay.Crates
import WebLoginRelay.Crypto.CanonicalText
import WebLoginRelay.Crypto.Primitives
import WebLoginRelay.Crypto.Signatures
import WebLoginRelay.Db.Access
import WebLoginRelay.Db.Entries
import WebLoginRelay.Db.Query
import WebLoginRelay.Db.Tables
import WebLoginRelay.Delivery.Queue
import WebLoginRelay.Ecma.Canonical
import WebLoginRelay.Ecma.Number
import WebLoginRelay.Error
import WebLoginRelay.Http.Jwks
import WebLoginRelay.Http.RateLimit
import WebLoginRelay.Json
import WebLoginRelay.JsonSyntax
import WebLoginRelay.JsonText
import WebLoginRelay.Ledger.Basic
import WebLoginRelay.Ledger.Refinement
import WebLoginRelay.Matrix.Client
import WebLoginRelay.Matrix.Rooms
import WebLoginRelay.Net.Http
import WebLoginRelay.Net.IpAddr
import WebLoginRelay.Net.Responses
import WebLoginRelay.Outbound.Exchange
import WebLoginRelay.Outbound.Receive
import WebLoginRelay.Outbound.SiteClient
import WebLoginRelay.Outbound.Ssrf
import WebLoginRelay.Properties.Atomicity
import WebLoginRelay.Properties.Audience
import WebLoginRelay.Properties.Authentication
import WebLoginRelay.Properties.Binding
import WebLoginRelay.Properties.CanonicalBytes
import WebLoginRelay.Properties.Consent
import WebLoginRelay.Properties.ConsentSignature
import WebLoginRelay.Properties.Delivering
import WebLoginRelay.Properties.DomainNames
import WebLoginRelay.Properties.Endings
import WebLoginRelay.Properties.Expiry
import WebLoginRelay.Properties.Finality
import WebLoginRelay.Properties.Frame
import WebLoginRelay.Properties.Grants
import WebLoginRelay.Properties.History
import WebLoginRelay.Properties.Idempotence
import WebLoginRelay.Properties.Isolation
import WebLoginRelay.Properties.Lifetime
import WebLoginRelay.Properties.NameLimits
import WebLoginRelay.Properties.Notices
import WebLoginRelay.Properties.Provenance
import WebLoginRelay.Properties.PublicAddresses
import WebLoginRelay.Properties.PublishedKey
import WebLoginRelay.Properties.RateLimiting
import WebLoginRelay.Properties.Readiness
import WebLoginRelay.Properties.Receiving
import WebLoginRelay.Properties.Registrations
import WebLoginRelay.Properties.Replay
import WebLoginRelay.Properties.Representation
import WebLoginRelay.Properties.RequestHeads
import WebLoginRelay.Properties.ResponseFraming
import WebLoginRelay.Properties.Retries
import WebLoginRelay.Properties.Revocation
import WebLoginRelay.Properties.RoomMembership
import WebLoginRelay.Properties.RoundTrip
import WebLoginRelay.Properties.SignedBytes
import WebLoginRelay.Properties.StateMachine
import WebLoginRelay.Properties.Stranding
import WebLoginRelay.Properties.StrictJson
import WebLoginRelay.Properties.Subjects
import WebLoginRelay.Properties.Timestamps
import WebLoginRelay.Properties.Unlinking
import WebLoginRelay.Properties.Versions
import WebLoginRelay.Properties.WireGrammar
import WebLoginRelay.Properties.Workers
import WebLoginRelay.Protocol.Messages
import WebLoginRelay.Protocol.Validation
import WebLoginRelay.Protocol.Wire
import WebLoginRelay.Relay
import WebLoginRelay.RoomPolicy
import WebLoginRelay.Samples.Crates
import WebLoginRelay.Samples.Runs
import WebLoginRelay.Services.Login
import WebLoginRelay.Services.Registration
import WebLoginRelay.System.Alone
import WebLoginRelay.System.Attempts
import WebLoginRelay.System.Calls
import WebLoginRelay.System.Change
import WebLoginRelay.System.Inv
import WebLoginRelay.System.Jobs
import WebLoginRelay.System.Locking
import WebLoginRelay.System.Permits
import WebLoginRelay.System.Reached
import WebLoginRelay.System.Rules
import WebLoginRelay.System.Semantics
import WebLoginRelay.System.Sequential
import WebLoginRelay.System.Tables
import WebLoginRelay.Text.Base64url
import WebLoginRelay.Text.Regex
import WebLoginRelay.Text.Split
import WebLoginRelay.Text.Utf8
import WebLoginRelay.Txn.Feed
import WebLoginRelay.Txn.Journal
import WebLoginRelay.Txn.Prog
import WebLoginRelay.Txn.Shared
import WebLoginRelay.Txn.Table
