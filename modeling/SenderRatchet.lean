import SenderRatchet.Bytes
import SenderRatchet.Position
import SenderRatchet.Crypto.Sha2
import SenderRatchet.Crypto.Hmac
import SenderRatchet.Crypto.Pbkdf2
import SenderRatchet.Crypto.Aes256
import SenderRatchet.Crypto.Cbc
import SenderRatchet.Crypto.Ed25519
import SenderRatchet.Crypto.Suite
import SenderRatchet.Crypto.KeyDerivation
import SenderRatchet.Text.Hex
import SenderRatchet.Text.Base64
import SenderRatchet.Text.Decimal
import SenderRatchet.Text.Printable
import SenderRatchet.Text.Literal
import SenderRatchet.Varint
import SenderRatchet.Value
import SenderRatchet.Parameter
import SenderRatchet.Report
import SenderRatchet.Limits
import SenderRatchet.Chain
import SenderRatchet.Ratchet
import SenderRatchet.Keypair
import SenderRatchet.Entropy
import SenderRatchet.Creation
import SenderRatchet.Envelope
import SenderRatchet.Message
import SenderRatchet.SessionKey
import SenderRatchet.Pickle.State
import SenderRatchet.Pickle
import SenderRatchet.Monitor
import SenderRatchet.Session
import SenderRatchet.Workspace
import SenderRatchet.Proofs.ChainSteps
import SenderRatchet.Proofs.ChainJump
import SenderRatchet.Proofs.RatchetMoves
import SenderRatchet.Proofs.Base64RoundTrip
import SenderRatchet.Proofs.ByteDigits
import SenderRatchet.Proofs.VarintSpellings
import SenderRatchet.Proofs.EnvelopeGrammar
import SenderRatchet.Proofs.EnvelopeRoundTrip
import SenderRatchet.Proofs.Aes256Inverse
import SenderRatchet.Proofs.SessionRuns
import SenderRatchet.Proofs.CbcRoundTrip
import SenderRatchet.Proofs.MessageReading
import SenderRatchet.Proofs.PickleRoundTrip
import SenderRatchet.Proofs.SoundSessions
import SenderRatchet.Proofs.MessageIndices
import SenderRatchet.Proofs.SessionKeyRoundTrip
import SenderRatchet.Proofs.Recipients
import SenderRatchet.Proofs.Restoration
import SenderRatchet.Proofs.SignatureCoverage
import SenderRatchet.Proofs.StretchedKeys
import SenderRatchet.Proofs.WrongPassphrases
import SenderRatchet.Proofs.FailureCounts
import SenderRatchet.Proofs.ForwardSecrecy
import SenderRatchet.Proofs.ShortestEnvelopes
import SenderRatchet.Proofs.PickleVerdicts
import SenderRatchet.Proofs.SignedExports
import SenderRatchet.Proofs.ErasedKeypairs
import SenderRatchet.Proofs.IndexRange
import SenderRatchet.Proofs.ReleasedSessions
import SenderRatchet.Proofs.AlikeOutcomes
import SenderRatchet.Proofs.Discretion
import SenderRatchet.Proofs.ReadIndices
import SenderRatchet.Proofs.ReaderRefusals
import SenderRatchet.Proofs.SessionCreation
import SenderRatchet.Proofs.StateLayout
import SenderRatchet.Proofs.JumpDependence
import SenderRatchet.Proofs.VarintPositions
import SenderRatchet.Proofs.Base64Alphabet
import SenderRatchet.Proofs.MonitorStatistics
import SenderRatchet.Proofs.RekeyInPlace
import SenderRatchet.Proofs.JumpDifferences
import SenderRatchet.Proofs.Erasure
import SenderRatchet.Proofs.Workspaces
