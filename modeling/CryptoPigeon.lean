import CryptoPigeon.TransitionSystem
import CryptoPigeon.FaultyProgram
import CryptoPigeon.AndroidCommitJournal
import CryptoPigeon.VaultBackupRelay
import CryptoPigeon.VaultBackupClient
import CryptoPigeon.BackupSync
import CryptoPigeon.VaultMove
import CryptoPigeon.ConsumingLoop
import CryptoPigeon.SyncMessages
import CryptoPigeon.ConsumeIncoming
import CryptoPigeon.EnvelopeWrites
import CryptoPigeon.FailureIsolation
import CryptoPigeon.TorRouting
import CryptoPigeon.DirectTorDelivery
import CryptoPigeon.DeliveryPass
import CryptoPigeon.RelayQueue
import CryptoPigeon.InboxStarvation
import CryptoPigeon.SecureVault
import CryptoPigeon.VaultReplacement
import CryptoPigeon.PasswordChange
import CryptoPigeon.DesktopPasswordChange
import CryptoPigeon.NativeVault
import CryptoPigeon.AndroidPasswordChange
import CryptoPigeon.CloudPasswordChange
import CryptoPigeon.MessageStatus
import CryptoPigeon.ContactStore
import CryptoPigeon.OutboxRatchet
import CryptoPigeon.InvitePinning
import CryptoPigeon.ContactVerification
import CryptoPigeon.BundleConfinement
import CryptoPigeon.IdentityChanges
import CryptoPigeon.LocalApiGate
import CryptoPigeon.DuressVault
import CryptoPigeon.DuressOperations
import CryptoPigeon.DuressArming
import CryptoPigeon.NativeDuress
import CryptoPigeon.RelayAuthorization
import CryptoPigeon.BackupRecords
import CryptoPigeon.InstanceLocks
import CryptoPigeon.JsonText
import CryptoPigeon.OnionListener
import CryptoPigeon.EnvelopeSpelling
import CryptoPigeon.PayloadConfinement
import CryptoPigeon.SendAtomicity
import CryptoPigeon.ReceiptTruth
import CryptoPigeon.AttachmentSpool
import CryptoPigeon.DecoyIsolation
import CryptoPigeon.ContactExchange
import CryptoPigeon.LoginSignature
import CryptoPigeon.LoginChallenges
import CryptoPigeon.Activation
import CryptoPigeon.SelfActivation
import CryptoPigeon.PrekeyBundles
import CryptoPigeon.AdditiveSharing
import CryptoPigeon.SevenOfSeven
import CryptoPigeon.StorageExport
import CryptoPigeon.JobSessions
import CryptoPigeon.AttachmentManifests
import CryptoPigeon.Utf16Json
import CryptoPigeon.SignedPayloads
import CryptoPigeon.BlindAcks
import CryptoPigeon.DownloadWindow
import CryptoPigeon.BackupLimits
import CryptoPigeon.RelayOrigins
import CryptoPigeon.JsonSizes
import CryptoPigeon.WireLimits
import CryptoPigeon.SigningContexts
import CryptoPigeon.AttachmentTransfer
import CryptoPigeon.LoopPrograms
import CryptoPigeon.SnapshotCodec
import CryptoPigeon.SnapshotGrammar
import CryptoPigeon.SnapshotRoundTrip
import CryptoPigeon.SlidingWindow
import CryptoPigeon.SignalBudget
import CryptoPigeon.DebouncedBackup
import CryptoPigeon.VaultFragments
import CryptoPigeon.TransportRouter
import CryptoPigeon.IncrementalReader
import CryptoPigeon.TorControl
import CryptoPigeon.SocksConnect
import CryptoPigeon.EventConnection
import CryptoPigeon.RequestLock
import CryptoPigeon.MessageExpiry
import CryptoPigeon.TorRecovery
import CryptoPigeon.TorSpool
import CryptoPigeon.SocketRegistry
import CryptoPigeon.JsonArrays
import CryptoPigeon.ServerlessInvites
import CryptoPigeon.InviteReading
import CryptoPigeon.InviteBounds
import CryptoPigeon.SessionPin
import CryptoPigeon.AdminSessions
import CryptoPigeon.RelayAttachments
import CryptoPigeon.DirectMode
import CryptoPigeon.HttpHead
import CryptoPigeon.OnionWire
import CryptoPigeon.LocalBridge
import CryptoPigeon.AndroidBackup
import CryptoPigeon.BlindRouting
