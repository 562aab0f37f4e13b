import Ferry.Base.Exec
import Ferry.Base.PosixPath
import Ferry.Base.Sha256
import Ferry.Base.Base64
import Ferry.Session.Handshake
import Ferry.Base.Disk
import Ferry.Base.Json
import Ferry.Base.Dict
import Ferry.Session.State
import Ferry.Session.Transcript
import Ferry.Transfer.State
import Ferry.Transfer.Metadata
import Ferry.Transfer.ChunkFrame
import Ferry.Transfer.Incoming
import Ferry.Transfer.Destination
import Ferry.Transfer.IncomingFrame
import Ferry.Transfer.IncomingRun
import Ferry.Transfer.Confinement
import Ferry.Transfer.Integrity
import Ferry.Transfer.Delivery
import Ferry.Transfer.FrameCodec
import Ferry.Transfer.Outgoing
import Ferry.Base.Chunks
import Ferry.Transfer.Streaming
import Ferry.Transfer.Receiving
import Ferry.Transfer.ResumeRoundTrip
import Ferry.Service.Database
import Ferry.Service.Records
import Ferry.Service.Message
import Ferry.Base.Hkdf
import Ferry.Session.KeySchedule
import Ferry.Base.X25519
import Ferry.Session.KeyAgreement
import Ferry.Base.Aead
import Ferry.Session.SecureChannel
import Ferry.Session.WireOrder
import Ferry.Service.Trust
import Ferry.Service.Revocation
import Ferry.Service.State
import Ferry.Service.Incoming
import Ferry.Service.ResumeRun
import Ferry.Service.Cleanup
import Ferry.Service.TrustedDevices
import Ferry.Service.Pairing
import Ferry.Android.State
import Ferry.Android.TrustStore
import Ferry.Android.Pairing
import Ferry.Android.Agreement
import Ferry.Android.Metadata
import Ferry.Android.Receiver
import Ferry.Android.Integrity
import Ferry.Android.Transfers
import Ferry.Android.Consent
import Ferry.Android.ChunkCodec
import Ferry.Session.FrameLimits
import Ferry.Android.ChunkRouting
import Ferry.Android.WireOrder
import Ferry.Daemon.State
import Ferry.Daemon.SessionLoop
import Ferry.Daemon.Commands
import Ferry.Daemon.Sending
import Ferry.Daemon.Step
import Ferry.Base.Footprint
import Ferry.Daemon.Footprint
import Ferry.Transfer.Fields
import Ferry.Transfer.StateAfter
import Ferry.Daemon.Moves
import Ferry.Daemon.CallMoves
import Ferry.Daemon.Ledger
import Ferry.Daemon.AcceptanceTimer
import Ferry.Daemon.Gating
import Ferry.Daemon.Sessions
import Ferry.Daemon.Watch
import Ferry.Daemon.Bookkeeping
import Ferry.Daemon.Busy
import Ferry.Session.Reflection
import Ferry.Daemon.Registry
import Ferry.Base.SharedDisk
import Ferry.Transfer.Overwriting
import Ferry.Android.Overwriting
import Ferry.Service.Belonging
import Ferry.Daemon.Unpairing
import Ferry.Android.Client
import Ferry.Android.ReceiverSlot
import Ferry.Android.ClientSteps
import Ferry.Android.Isolation
import Ferry.Android.SendTurns
import Ferry.Android.Verdicts
import Ferry.Android.ResumeAnswer
import Ferry.Transfer.ResumeRequest
import Ferry.Transfer.Snapshot
import Ferry.Android.SafeNames
import Ferry.Android.Feeding
import Ferry.Android.Validators
import Ferry.Base.Framing
import Ferry.Base.Utf8
import Ferry.Session.ControlFrame
import Ferry.Transfer.Atomicity
import Ferry.Daemon.Requests
import Ferry.Android.Cancelling
import Ferry.Transfer.Sizes
import Ferry.Daemon.Totals
import Ferry.Base.Machine
import Ferry.Discovery.Device
import Ferry.Discovery.Manager
import Ferry.Discovery.Accuracy
import Ferry.Ipc.Snapshot
import Ferry.Service.InterruptedStore
import Ferry.Android.Discovery
import Ferry.Android.LostServices
import Ferry.Ipc.Server
import Ferry.Ipc.Delivery
import Ferry.Ipc.InOrder
import Ferry.Android.Mirroring
import Ferry.Service.Startup
import Ferry.Android.ResumeSuffix
import Ferry.Android.LostUploads
import Ferry.Android.PartFiles
import Ferry.Android.InterruptedDownloads
import Ferry.Android.KeptDownloads
import Ferry.Base.Recency
import Ferry.Base.ReadLoop
import Ferry.Desktop.TokenBucket
import Ferry.Desktop.NotificationBridge
import Ferry.Desktop.IssuedIds
import Ferry.Transfer.PrefixHash
import Ferry.Android.InterruptedPrefs
import Ferry.Android.InterruptedIndex
import Ferry.Android.StoredRecords
