import Citadel.Program.Basic
import Citadel.Program.Contract
import Citadel.Program.Interleaving
import Citadel.Program.Journal
import Citadel.Program.Journals
import Citadel.Program.PowerCuts
import Citadel.Program.Reading
import Citadel.Program.Replacing
import Citadel.Program.Shelf
import Citadel.Data.Band
import Citadel.Data.Bytes
import Citadel.Data.Checked
import Citadel.Data.Delimited
import Citadel.Data.Disk
import Citadel.Data.Faults
import Citadel.Data.Float64
import Citadel.Data.Following
import Citadel.Data.Framing
import Citadel.Data.HashChain
import Citadel.Data.Json
import Citadel.Data.Lease
import Citadel.Data.Machine
import Citadel.Data.Meter
import Citadel.Data.Numbering
import Citadel.Data.Outcome
import Citadel.Data.Paths
import Citadel.Data.Stateful
import Citadel.Data.Table
import Citadel.Data.TextLines
import Citadel.Data.Volume
import Citadel.Data.Window
import Citadel.Core.Authority
import Citadel.Core.Expiry
import Citadel.Core.Revoking
import Citadel.Core.StateEnforcer
import Citadel.Envelope.Backend
import Citadel.Envelope.Binding
import Citadel.Envelope.CallerData
import Citadel.Envelope.Canonical
import Citadel.Envelope.Formats
import Citadel.Envelope.Kem
import Citadel.Envelope.KemP384
import Citadel.Envelope.KemP384Bytes
import Citadel.Envelope.Legacy
import Citadel.Envelope.Opening
import Citadel.Envelope.Sdk
import Citadel.Envelope.Separation
import Citadel.Envelope.StreamCalls
import Citadel.Envelope.StreamFrames
import Citadel.Envelope.StreamIntegrity
import Citadel.Envelope.StreamV3
import Citadel.Envelope.Suites
import Citadel.Envelope.Transparent
import Citadel.Envelope.Typed
import Citadel.Envelope.Wire
import Citadel.Envelope.WireV2
import Citadel.Keystore.Adaptation
import Citadel.Keystore.Arithmetic
import Citadel.Keystore.AuditReplay
import Citadel.Keystore.AuditTrail
import Citadel.Keystore.AuditUses
import Citadel.Keystore.Audited
import Citadel.Keystore.Authorized
import Citadel.Keystore.BackendRefinement
import Citadel.Keystore.Backup
import Citadel.Keystore.Batches
import Citadel.Keystore.Blocking
import Citadel.Keystore.Calls
import Citadel.Keystore.Capabilities
import Citadel.Keystore.Cascade
import Citadel.Keystore.CascadeBounds
import Citadel.Keystore.CascadeSpec
import Citadel.Keystore.Change
import Citadel.Keystore.CrashSafety
import Citadel.Keystore.DecryptEffect
import Citadel.Keystore.Decryption
import Citadel.Keystore.Dependence
import Citadel.Keystore.Descendants
import Citadel.Keystore.DestroyAtomicity
import Citadel.Keystore.DestroyFaults
import Citadel.Keystore.Doctor
import Citadel.Keystore.DurableBackend
import Citadel.Keystore.Encryption
import Citadel.Keystore.Enforcement
import Citadel.Keystore.Error
import Citadel.Keystore.Escalation
import Citadel.Keystore.Evolution
import Citadel.Keystore.Extraction
import Citadel.Keystore.FailedDecrypt
import Citadel.Keystore.FaultyBackend
import Citadel.Keystore.FileBackend
import Citadel.Keystore.Governed
import Citadel.Keystore.GraphValidation
import Citadel.Keystore.Growth
import Citadel.Keystore.Hierarchy
import Citadel.Keystore.Hysteresis
import Citadel.Keystore.Interference
import Citadel.Keystore.KeyFile
import Citadel.Keystore.KeyGraph
import Citadel.Keystore.Lifecycle
import Citadel.Keystore.LifecycleSafety
import Citadel.Keystore.Material
import Citadel.Keystore.Migration
import Citadel.Keystore.Monitoring
import Citadel.Keystore.Placement
import Citadel.Keystore.Policy
import Citadel.Keystore.Races
import Citadel.Keystore.Reading
import Citadel.Keystore.RedisClaims
import Citadel.Keystore.RedisReplay
import Citadel.Keystore.ReplayFile
import Citadel.Keystore.ReplayKills
import Citadel.Keystore.ReplayReference
import Citadel.Keystore.ReplayStore
import Citadel.Keystore.Replays
import Citadel.Keystore.Rewrapping
import Citadel.Keystore.RoundTrip
import Citadel.Keystore.Session
import Citadel.Keystore.Severance
import Citadel.Keystore.ShardedReplay
import Citadel.Keystore.Sharing
import Citadel.Keystore.Signatures
import Citadel.Keystore.Signing
import Citadel.Keystore.Slicing
import Citadel.Keystore.Storage
import Citadel.Keystore.Success
import Citadel.Keystore.Sweep
import Citadel.Keystore.Threat
import Citadel.Keystore.Types
import Citadel.Keystore.Unwrapping
import Citadel.Keystore.ValidGraph
import Citadel.Keystore.Verdicts
import Citadel.Keystore.VersionValidity
import Citadel.Keystore.Wrapping
import Citadel.Keystore.WrappingCycles
import Citadel.Keystore.WrappingEdges
import Citadel.Audit.Chain
import Citadel.Audit.Concurrent
import Citadel.Audit.Events
import Citadel.Audit.Log
import Citadel.Audit.PlainFormat
import Citadel.Audit.Restarts
import Citadel.Audit.Tampering
import Citadel.Api.Access
import Citadel.Api.ApiKeys
import Citadel.Api.Assertions
import Citadel.Api.Confinement
import Citadel.Api.Delegation
import Citadel.Api.Existence
import Citadel.Api.KeyStoreFile
import Citadel.Api.Lifetimes
import Citadel.Api.Opacity
import Citadel.Api.Provenance
import Citadel.Api.RateBounds
import Citadel.Api.RateLimit
import Citadel.Api.Revocation
import Citadel.Api.Routes
import Citadel.Api.Server
import Citadel.Api.Service
import Citadel.Api.SigningInput
import Citadel.Api.Steps
import Citadel.Ffi.Calls
import Citadel.Ffi.Contract
import Citadel.Ffi.Exchange
import Citadel.Ffi.Frees
import Citadel.Ffi.Memory
import Citadel.Ffi.Ownership
import Citadel.Ffi.Results
import Citadel.Cli.Migrate
