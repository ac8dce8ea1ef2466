import Credentials.Base64Url
import Credentials.Binary64
import Credentials.Binary64.Shortest
import Credentials.Bytes
import Credentials.Challenge
import Credentials.Collaborators
import Credentials.CommandLine.Arguments
import Credentials.CommandLine.Command
import Credentials.CommandLine.Reply
import Credentials.CommandLine.Run
import Credentials.Commitment
import Credentials.Credential
import Credentials.Decimal
import Credentials.Digest
import Credentials.Ed25519
import Credentials.Ed25519.Curve
import Credentials.Environment
import Credentials.Fault
import Credentials.Hex
import Credentials.Hex.Digit
import Credentials.Identity
import Credentials.Issuer
import Credentials.Json.Ascii
import Credentials.Json.Basic
import Credentials.Json.Canonical
import Credentials.Json.Lexeme
import Credentials.Json.Pretty
import Credentials.Json.Printer
import Credentials.Json.Record
import Credentials.Json.Replace
import Credentials.Json.Serialized
import Credentials.Json.Written
import Credentials.Key.Ring
import Credentials.Main
import Credentials.Policy.Definition
import Credentials.Policy.Registry
import Credentials.Policy.Status
import Credentials.Presentation.Basic
import Credentials.Presentation.Credential
import Credentials.Presentation.Engine
import Credentials.Presentation.ZeroKnowledge
import Credentials.Proof
import Credentials.Proofs.Base64Url
import Credentials.Proofs.BoundDocument
import Credentials.Proofs.Cancellation.Absorbing
import Credentials.Proofs.Cancellation.Operations
import Credentials.Proofs.Cancellation.Tracing
import Credentials.Proofs.Challenge
import Credentials.Proofs.Challenge.Issued
import Credentials.Proofs.Checks
import Credentials.Proofs.Commitment
import Credentials.Proofs.Hex
import Credentials.Proofs.Hex.Reading
import Credentials.Proofs.Issuance.Acceptance
import Credentials.Proofs.Issuance.Decoding
import Credentials.Proofs.Issuance.Interleaving
import Credentials.Proofs.Issuance.Issue
import Credentials.Proofs.Issuance.Validity
import Credentials.Proofs.Json.CanonicalForm
import Credentials.Proofs.Json.CanonicalText
import Credentials.Proofs.Json.Decoding
import Credentials.Proofs.Json.FixedPoint
import Credentials.Proofs.Json.Grammar
import Credentials.Proofs.Json.Intake
import Credentials.Proofs.Json.Lexing
import Credentials.Proofs.Json.Members
import Credentials.Proofs.Json.NormalForm
import Credentials.Proofs.Json.Number
import Credentials.Proofs.Json.Reading
import Credentials.Proofs.Json.Record
import Credentials.Proofs.Json.Resolving
import Credentials.Proofs.Json.RoundTrip
import Credentials.Proofs.Json.Serializing
import Credentials.Proofs.Json.Sink
import Credentials.Proofs.Json.Writing
import Credentials.Proofs.Key.Retirement
import Credentials.Proofs.Key.Ring
import Credentials.Proofs.Key.Service
import Credentials.Proofs.Payload
import Credentials.Proofs.Payload.Inverse
import Credentials.Proofs.Policy.Attestation
import Credentials.Proofs.Policy.Binding
import Credentials.Proofs.Policy.Draft
import Credentials.Proofs.Policy.Hash
import Credentials.Proofs.Policy.Log
import Credentials.Proofs.Policy.Registry
import Credentials.Proofs.Policy.Retirement
import Credentials.Proofs.Policy.Store
import Credentials.Proofs.Policy.Wire
import Credentials.Proofs.Presentation.Asking
import Credentials.Proofs.Presentation.Credential
import Credentials.Proofs.Presentation.Honest
import Credentials.Proofs.Presentation.Recorded
import Credentials.Proofs.Presentation.Wire
import Credentials.Proofs.RawText
import Credentials.Proofs.Step
import Credentials.Proofs.Text
import Credentials.Proofs.Time.Calendar
import Credentials.Proofs.Time.Clock
import Credentials.Proofs.Time.Days
import Credentials.Proofs.Time.Order
import Credentials.Proofs.Time.Reading
import Credentials.Proofs.Time.Text
import Credentials.Proofs.Token
import Credentials.Proofs.Token.Codec
import Credentials.Proofs.Trust.Growth
import Credentials.Proofs.Trust.Keys
import Credentials.Proofs.Utf8
import Credentials.Proofs.Uuid
import Credentials.Proofs.Validation.Answers
import Credentials.Proofs.Validation.Judgement
import Credentials.Proofs.Validation.Stages
import Credentials.Proofs.Validation.Window
import Credentials.Proofs.World.Failures
import Credentials.Proofs.World.Faults
import Credentials.Proofs.World.Granting
import Credentials.Proofs.World.InPlace
import Credentials.Proofs.World.Run
import Credentials.Proofs.World.Traceless
import Credentials.Reason
import Credentials.Regex.Basic
import Credentials.Regex.Parser
import Credentials.Report
import Credentials.Schema.Basic
import Credentials.Schema.Check
import Credentials.Schema.Number
import Credentials.Schema.Pointer
import Credentials.Schema.PublicSignals
import Credentials.Schema.Reading
import Credentials.Schema.Shape
import Credentials.Sha2
import Credentials.Signal
import Credentials.Text.Blank
import Credentials.Text.Printable
import Credentials.Text.Quoted
import Credentials.Time.Calendar
import Credentials.Time.Clock
import Credentials.Time.Instant
import Credentials.Time.Seconds
import Credentials.Token
import Credentials.Trust.Basic
import Credentials.Trust.Building
import Credentials.Uuid
import Credentials.Validator
import Credentials.Wire
import Credentials.World
import Credentials.Yaml.Basic
import Credentials.Yaml.Block
import Credentials.Yaml.Document
import Credentials.Yaml.Place
import Credentials.Yaml.Scalar
import Credentials.Yaml.Value
