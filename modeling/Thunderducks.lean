import Thunderducks.Lib.HashMap
import Thunderducks.Lib.Json
import Thunderducks.Lib.JsonUnique
import Thunderducks.Lib.JsonRead
import Thunderducks.Lib.JsonSize
import Thunderducks.Lib.Framing
import Thunderducks.Lib.JsonPretty
import Thunderducks.Lib.Files
import Thunderducks.Lib.Text
import Thunderducks.Lib.IpText
import Thunderducks.Lib.IpRead
import Thunderducks.Lib.IpAddr
import Thunderducks.Lib.Replace
import Thunderducks.Lib.Checked
import Thunderducks.Lib.Panic
import Thunderducks.Lib.Instant
import Thunderducks.Lib.Window
import Thunderducks.Lib.FixedWindow
import Thunderducks.Lib.Broadcast
import Thunderducks.Lib.Causal
import Thunderducks.Lib.Extension
import Thunderducks.Lib.Runs
import Thunderducks.Lib.Unwinding
import Thunderducks.Lib.Lockout
import Thunderducks.Lib.Ahead
import Thunderducks.Event.Event
import Thunderducks.Event.Checksum
import Thunderducks.Event.Dag
import Thunderducks.Event.DagRuns
import Thunderducks.Event.Store
import Thunderducks.Event.Stores
import Thunderducks.Event.Room
import Thunderducks.Event.Authority
import Thunderducks.Event.MemberFold
import Thunderducks.Event.Arrival
import Thunderducks.Event.Fate
import Thunderducks.Event.Stable
import Thunderducks.Event.Applied
import Thunderducks.Event.ContentAddress
import Thunderducks.Event.Founding
import Thunderducks.Event.Replay
import Thunderducks.Event.Invited
import Thunderducks.Event.Standing
import Thunderducks.Event.Refused
import Thunderducks.Crypto.Vodozemac
import Thunderducks.Crypto.E2ee
import Thunderducks.Crypto.RelaySeal
import Thunderducks.Crypto.Base64
import Thunderducks.Crypto.Origin
import Thunderducks.Crypto.Passkey
import Thunderducks.Crypto.PasskeyRuns
import Thunderducks.Crypto.Symbolic
import Thunderducks.Crypto.InboundKeys
import Thunderducks.Crypto.RoomRatchet
import Thunderducks.Crypto.RoomImport
import Thunderducks.Crypto.OneTimeKeys
import Thunderducks.Crypto.Durable
import Thunderducks.Crypto.Ratchet
import Thunderducks.Crypto.OlmPair
import Thunderducks.Net.RelayProto
import Thunderducks.Net.Dial
import Thunderducks.Net.Frame
import Thunderducks.Net.Noise
import Thunderducks.Net.NoisePipe
import Thunderducks.Net.QuicPem
import Thunderducks.Net.QuicTls
import Thunderducks.Relay.Store
import Thunderducks.Relay.Envelopes
import Thunderducks.Relay.Serve
import Thunderducks.Node.Sync
import Thunderducks.Node.Coherence
import Thunderducks.Node.Drain
import Thunderducks.Node.Commit
import Thunderducks.Node.Delivery
import Thunderducks.Node.Loss
import Thunderducks.Node.Converge
import Thunderducks.Node.Kept
import Thunderducks.Node.RoomE2ee
import Thunderducks.Node.Session
import Thunderducks.Node.Peers
import Thunderducks.Node.Advertise
import Thunderducks.Node.QuicIdentity
import Thunderducks.Node.RelayPush
import Thunderducks.Node.RelayPoll
import Thunderducks.Node.RelayDrain
import Thunderducks.Node.RelaySealed
import Thunderducks.Node.RateLimit
import Thunderducks.Node.RateRuns
import Thunderducks.Node.RateWindows
import Thunderducks.Node.RateClasses
import Thunderducks.Node.Owner
import Thunderducks.Node.OwnerSessions
import Thunderducks.Node.RecoveryLimit
import Thunderducks.Node.RecoveryCode
import Thunderducks.Node.Claim
import Thunderducks.Node.Link
import Thunderducks.Node.Pairing
import Thunderducks.Node.Writes
import Thunderducks.Node.Outbox
import Thunderducks.Node.Failed
import Thunderducks.Node.Ledger
import Thunderducks.Node.Feeding
import Thunderducks.Node.Handlers
import Thunderducks.Node.TwoStores
import Thunderducks.Node.Messages
import Thunderducks.Node.Reopen
import Thunderducks.Node.Rebuild
import Thunderducks.Node.Restart
import Thunderducks.Node.Timestamps
import Thunderducks.Node.Listing
import Thunderducks.Node.E2eeRequests
import Thunderducks.Node.SyncPeer
import Thunderducks.Node.RoomKeys
import Thunderducks.Node.Waiting
import Thunderducks.Node.Stream
import Thunderducks.Node.Ota
import Thunderducks.Node.Rendering
import Thunderducks.Widget.Host
import Thunderducks.Widget.Guest
import Thunderducks.Widget.Bridge
import Thunderducks.Widget.Answers
import Thunderducks.Lib.Gossip
import Thunderducks.Node.Gossip
import Thunderducks.Relay.Limiter
import Thunderducks.Node.Mail
import Thunderducks.Node.Identity
import Thunderducks.Node.OtaManifest
import Thunderducks.Lib.Remote
import Thunderducks.Relay.Calls
import Thunderducks.Node.LiveView
import Thunderducks.Node.Fanout
import Thunderducks.Node.Gate
