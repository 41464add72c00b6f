import Label309.Lib.BigEndian
import Label309.Lib.ByteReader
import Label309.Lib.CborWire
import Label309.Lib.ExceptBind
import Label309.Lib.SortByKey
import Label309.Bytes
import Label309.Cbor.Value
import Label309.Cbor.Encode
import Label309.Cbor.EncodeSpec
import Label309.Cbor.Decode
import Label309.Cbor.Head
import Label309.Cbor.RoundTrip
import Label309.Cbor.SameBytes
import Label309.Cbor.Permissive
import Label309.Cbor.PermissiveExtent
import Label309.Cbor.EncodedLength
import Label309.PoeStandard.ErrorCode
import Label309.PoeStandard.Registry
import Label309.PoeStandard.Record
import Label309.PoeStandard.Uri
import Label309.PoeStandard.Issue
import Label309.PoeStandard.Schema
import Label309.PoeStandard.Envelope
import Label309.PoeStandard.SigEntryCheck
import Label309.PoeStandard.FromCbor
import Label309.PoeStandard.Validate
import Label309.PoeStandard.Grammar
import Label309.PoeStandard.FieldChecks
import Label309.PoeStandard.EnvelopeAcceptance
import Label309.PoeStandard.SigAcceptance
import Label309.PoeStandard.Acceptance
import Label309.PoeStandard.Projection
import Label309.PoeStandard.Validity
import Label309.PoeStandard.Produced
import Label309.Verifier.CborWalker
import Label309.Verifier.ItemExtent
import Label309.Verifier.Carriage
import Label309.Cose
import Label309.CoseWire
import Label309.SigStructure
import Label309.Merkle
import Label309.MerkleInclusion
import Label309.SealedPoe.Aead
import Label309.SealedPoe.Stream
import Label309.SealedPoe.StreamBijection
import Label309.SealedPoe.Errors
import Label309.SealedPoe.StreamIo
import Label309.SealedPoe.StreamIoRefinement
import Label309.SealedPoe.Slots
import Label309.SealedPoe.Transcript
import Label309.SealedPoe.Kem
import Label309.SealedPoe.Wrap
import Label309.SealedPoe.Passphrase
import Label309.SealedPoe.TranscriptInjectivity
import Label309.SealedPoe.TranscriptBinding
import Label309.SealedPoe.Unwrap
import Label309.SealedPoe.UnwrapAgreement
import Label309.SealedPoe.WrapSpec
import Label309.Lib.FisherYates
import Label309.SealedPoe.ShuffleUniform
import Label309.SealedPoe.WrapUnwrap
import Label309.Verifier.Signatures
import Label309.Verifier.SignatureSoundness
import Label309.SealedPoe.EntropyFailure
import Label309.Verifier.Egress
import Label309.Verifier.Types
import Label309.Verifier.Content
import Label309.SealedPoe.ParsedEnvelope
import Label309.Verifier.Decrypt
import Label309.Verifier.SourceWalk
import Label309.Verifier.Keyring
import Label309.MerkleLeavesList
import Label309.MerkleLeavesRoundTrip
import Label309.Verifier.MerkleCheck
import Label309.Verifier.Resolve
import Label309.Verifier.Verify
import Label309.PoeStandard.IssueCodes
import Label309.PoeStandard.Policy
import Label309.PoeStandard.Rejection
import Label309.Verifier.CheckRules
import Label309.Verifier.CarriageCodes
import Label309.Verifier.ReportVerdict
import Label309.Verifier.Attribution
import Label309.Verifier.ContentEvidence
import Label309.Verifier.UnsupportedSigs
import Label309.Verifier.SignatureStep
import Label309.SealedPoe.SlotFold
import Label309.SealedPoe.PassphraseRoundTrip
import Label309.Verifier.EgressRuns
import Label309.Lib.Lowercase
import Label309.Verifier.DenyList
import Label309.Verifier.IpAddress
import Label309.Verifier.BlockedIp
import Label309.Verifier.CoseReaders
import Label309.CoseBuild
import Label309.CoseRoundTrip
import Label309.CoseCodec
import Label309.Client.OffHostSign
import Label309.Certificate.Build
import Label309.Certificate.Verify
import Label309.Certificate.BuildVerify
import Label309.Lib.Utf8
import Label309.Lib.Radix
import Label309.Verifier.CidDecoders
import Label309.Verifier.UriAgreement
import Label309.Lib.Traced
import Label309.Lib.Retry
import Label309.Client.Http
import Label309.Client.Resumable
import Label309.Client.ResumableSteps
import Label309.Client.ChunkRetry
import Label309.Client.CompletionRecovery
import Label309.Client.ChunkGrid
import Label309.Client.ProgressTicks
import Label309.Client.ProgressCount
import Label309.Client.ResumableRequests
import Label309.Client.ResumableCancel
import Label309.Client.Publish
import Label309.Client.PublishRecord
import Label309.Client.PublishAccepted
import Label309.Cbor.Restriction
import Label309.Lib.Regroup
import Label309.Text.Recipient
import Label309.Text.Checksum
import Label309.Text.Bech32
import Label309.Text.Spellings
import Label309.Text.RecipientExact
import Label309.Text.HexDigits
import Label309.Text.Seed
import Label309.Text.SeedDamage
import Label309.Text.Ids
import Label309.Text.IdsExact
import Label309.Verifier.TxWitnesses
import Label309.Verifier.TxDescription
import Label309.Verifier.CidText
import Label309.Lib.Delimited
import Label309.Client.Multipart
import Label309.Certificate.InclusionProof
import Label309.Lib.UrlText
import Label309.Lib.DotSegments
import Label309.Verifier.GatewayPath
import Label309.Lib.CanonicalOrder
import Label309.Text.Nfkc16
import Label309.Text.Nfkc16Normal
import Label309.Verifier.TxBinding
import Label309.Verifier.ResolveRuns
import Label309.Lib.Words
import Label309.SealedPoe.PassphraseNormal
import Label309.Verifier.IssueOrder
import Label309.Verifier.Base58Value
import Label309.Lib.AnchoredPattern
import Label309.PoeStandard.CipherPattern
import Label309.Lib.Decimal
import Label309.Lib.Gregorian
import Label309.Certificate.CivilDate
import Label309.Verifier.RunRequests
import Label309.Client.UploadEnds
import Label309.Client.GatewaySession
import Label309.Client.PublishOrder
import Label309.Client.PublishVerifies
import Label309.Lib.Redirects
import Label309.Verifier.GatewayTransport
import Label309.Verifier.OfflineRun
import Label309.MerkleBinding
import Label309.Lib.PercentEncoding
import Label309.Client.Records
import Label309.Lib.OrderedFields
import Label309.Verifier.Serialize
