import SignedFirmware.Blueprint.Basic
import SignedFirmware.Blueprint.Build
import SignedFirmware.Blueprint.Text
import SignedFirmware.Bytes
import SignedFirmware.Command.Arguments
import SignedFirmware.Command.Files
import SignedFirmware.Command.Report
import SignedFirmware.Command.Run
import SignedFirmware.Digest.Algorithm
import SignedFirmware.Digest.Context
import SignedFirmware.Digest.Engine
import SignedFirmware.Flash
import SignedFirmware.Halt
import SignedFirmware.Image.Descriptor
import SignedFirmware.Image.Descriptor.Parse
import SignedFirmware.Image.Header
import SignedFirmware.Image.ImageType
import SignedFirmware.Image.Layout
import SignedFirmware.Image.Platform
import SignedFirmware.Image.Region
import SignedFirmware.Image.RegionTable
import SignedFirmware.Image.Scan
import SignedFirmware.Image.SignatureCheck
import SignedFirmware.Image.Transition
import SignedFirmware.Image.Validation
import SignedFirmware.Image.Version
import SignedFirmware.Json.Codec
import SignedFirmware.Json.Printer
import SignedFirmware.Json.Reader
import SignedFirmware.Json.Token
import SignedFirmware.Json.Value
import SignedFirmware.Main
import SignedFirmware.Proofs.Acceptance
import SignedFirmware.Proofs.Blueprint.Admission
import SignedFirmware.Proofs.Blueprint.Bounds
import SignedFirmware.Proofs.Blueprint.Buildability
import SignedFirmware.Proofs.Blueprint.Building
import SignedFirmware.Proofs.Blueprint.Drafting
import SignedFirmware.Proofs.Blueprint.Rebuilding
import SignedFirmware.Proofs.Blueprint.Records
import SignedFirmware.Proofs.Blueprint.Regularity
import SignedFirmware.Proofs.Blueprint.Sections
import SignedFirmware.Proofs.Blueprint.Sizes
import SignedFirmware.Proofs.Blueprint.Writing
import SignedFirmware.Proofs.Bytes
import SignedFirmware.Proofs.Command.Decision
import SignedFirmware.Proofs.Command.Files
import SignedFirmware.Proofs.Command.Inspection
import SignedFirmware.Proofs.Command.Running
import SignedFirmware.Proofs.Completeness
import SignedFirmware.Proofs.Contexts
import SignedFirmware.Proofs.Digests
import SignedFirmware.Proofs.Engine
import SignedFirmware.Proofs.Feeding
import SignedFirmware.Proofs.Image.Binding
import SignedFirmware.Proofs.Image.Candidate
import SignedFirmware.Proofs.Image.Contiguity
import SignedFirmware.Proofs.Image.Coverage
import SignedFirmware.Proofs.Image.Endings
import SignedFirmware.Proofs.Image.Exactness
import SignedFirmware.Proofs.Image.Format
import SignedFirmware.Proofs.Image.Mirroring
import SignedFirmware.Proofs.Image.Parsing
import SignedFirmware.Proofs.Image.Partition
import SignedFirmware.Proofs.Image.Placement
import SignedFirmware.Proofs.Image.Positions
import SignedFirmware.Proofs.Image.Rewriting
import SignedFirmware.Proofs.Image.Scanning
import SignedFirmware.Proofs.Image.Table
import SignedFirmware.Proofs.Image.Tiling
import SignedFirmware.Proofs.Memory
import SignedFirmware.Proofs.Precedence
import SignedFirmware.Proofs.Reading
import SignedFirmware.Proofs.Recording
import SignedFirmware.Proofs.Recovery
import SignedFirmware.Proofs.Relocation
import SignedFirmware.Proofs.Requirements
import SignedFirmware.Proofs.Rollback.Attempts
import SignedFirmware.Proofs.Rollback.Codec
import SignedFirmware.Proofs.Rollback.Effects
import SignedFirmware.Proofs.Rollback.Endings
import SignedFirmware.Proofs.Rollback.Format
import SignedFirmware.Proofs.Rollback.Grammar
import SignedFirmware.Proofs.Rollback.Keeping
import SignedFirmware.Proofs.Rollback.Mirroring
import SignedFirmware.Proofs.Rollback.Repeating
import SignedFirmware.Proofs.Rollback.Ruling
import SignedFirmware.Proofs.RoundTrip
import SignedFirmware.Proofs.Rsa.Agreement
import SignedFirmware.Proofs.Rsa.Pkcs1
import SignedFirmware.Proofs.Rsa.Primes
import SignedFirmware.Proofs.Rsa.Signing
import SignedFirmware.Proofs.Rsa.Trust
import SignedFirmware.Proofs.Safety
import SignedFirmware.Proofs.Search
import SignedFirmware.Proofs.Session
import SignedFirmware.Proofs.Sha2
import SignedFirmware.Proofs.SignedRange
import SignedFirmware.Proofs.Steps
import SignedFirmware.Proofs.Wire.Capacity
import SignedFirmware.Proofs.Wire.Names
import SignedFirmware.Proofs.Wire.Offsets
import SignedFirmware.Proofs.Wire.Replaying
import SignedFirmware.Proofs.Wire.Reserved
import SignedFirmware.Proofs.Wire.Skipping
import SignedFirmware.Proofs.Wire.Slices
import SignedFirmware.Proofs.Wire.Standing
import SignedFirmware.Reason
import SignedFirmware.Rollback.Blob
import SignedFirmware.Rollback.Enforcement
import SignedFirmware.Rollback.Record
import SignedFirmware.Rsa.Der
import SignedFirmware.Rsa.Key
import SignedFirmware.Rsa.Keyring
import SignedFirmware.Rsa.Pkcs1
import SignedFirmware.Sha2.BlockHash
import SignedFirmware.Sha2.Engine
import SignedFirmware.Sha2.Words32
import SignedFirmware.Sha2.Words64
import SignedFirmware.Signature.Capability
import SignedFirmware.Wire.Coded
import SignedFirmware.Wire.Field
import SignedFirmware.Wire.Reader
import SignedFirmware.Wire.Sink
