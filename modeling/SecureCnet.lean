import SecureCnet.Library.BigEndian
import SecureCnet.Library.SlidingWindow
import SecureCnet.Library.TableSum
import SecureCnet.Library.Chunks
import SecureCnet.Library.Numbering
import SecureCnet.Library.PairedIndex
import SecureCnet.Library.Framing
import SecureCnet.Library.FixedWindow
import SecureCnet.Library.Leads
import SecureCnet.Wire.Config
import SecureCnet.Wire.ByteBuf
import SecureCnet.Wire.Message
import SecureCnet.Wire.Fragment
import SecureCnet.Wire.Packet
import SecureCnet.Wire.Crypto
import SecureCnet.Wire.Handshake
import SecureCnet.Wire.HandshakeCodec
import SecureCnet.Delivery.Windows
import SecureCnet.Delivery.ReliableSession
import SecureCnet.Delivery.Ordered
import SecureCnet.Delivery.Reassembler
import SecureCnet.Delivery.ReliableRuns
import SecureCnet.Delivery.ByteBudget
import SecureCnet.Delivery.Transmissions
import SecureCnet.Delivery.OrderedRuns
import SecureCnet.Delivery.ReassemblyRuns
import SecureCnet.Delivery.Accounting
import SecureCnet.Delivery.Lifetimes
import SecureCnet.Delivery.Congestion
import SecureCnet.Delivery.Pacing
import SecureCnet.Delivery.Polling
import SecureCnet.Delivery.CongestionRuns
import SecureCnet.Delivery.RoundTrips
import SecureCnet.Session.State
import SecureCnet.Session.Queue
import SecureCnet.Session.Send
import SecureCnet.Session.Receive
import SecureCnet.Session.Rules
import SecureCnet.Session.Effects
import SecureCnet.Session.Frames
import SecureCnet.Session.Sealed
import SecureCnet.Session.Inbox
import SecureCnet.Session.Flush
import SecureCnet.Session.Silent
import SecureCnet.Session.Acks
import SecureCnet.Session.Deliver
import SecureCnet.Session.Transparency
import SecureCnet.Session.OrderedChannel
import SecureCnet.Session.Admission
import SecureCnet.Session.Continuity
import SecureCnet.Session.Dispatch
import SecureCnet.Session.Attention
import SecureCnet.Session.Transmissions
import SecureCnet.Session.Failures
import SecureCnet.Session.Violations
import SecureCnet.Session.Framing
import SecureCnet.Session.Rejections
import SecureCnet.Session.Wraparound
import SecureCnet.Session.Sizes
import SecureCnet.Session.Rollback
import SecureCnet.Session.PacketQueue
import SecureCnet.Link.Model
import SecureCnet.Link.Ledger
import SecureCnet.Link.Arrival
import SecureCnet.Link.Sender
import SecureCnet.Link.Receiver
import SecureCnet.Link.Reception
import SecureCnet.Link.Run
import SecureCnet.Link.Wraparound
import SecureCnet.Link.Delivery
import SecureCnet.Link.Acknowledged
import SecureCnet.Link.OrderedNumbers
import SecureCnet.Link.Transmissions
import SecureCnet.Link.Sequenced
import SecureCnet.Server.Token
import SecureCnet.Server.State
import SecureCnet.Server.Operations
import SecureCnet.Server.Outcomes
import SecureCnet.Server.Effects
import SecureCnet.Server.Index
import SecureCnet.Server.Validation
import SecureCnet.Server.Datagram
import SecureCnet.Server.Bans
import SecureCnet.Server.Replay
import SecureCnet.Server.Isolation
import SecureCnet.Server.Replacement
import SecureCnet.Server.Table
import SecureCnet.Server.Timeouts
import SecureCnet.Server.Upkeep
import SecureCnet.Server.Lifecycle
import SecureCnet.Server.Callbacks
import SecureCnet.Server.Quota
import SecureCnet.Server.Drain
import SecureCnet.Server.Backlog
import SecureCnet.Server.Reassembly
import SecureCnet.Server.PacketQueue
import SecureCnet.Server.RateLimit
import SecureCnet.Client.Operations
import SecureCnet.Client.Outcomes
import SecureCnet.Client.Effects
import SecureCnet.Client.Copies
import SecureCnet.Client.AuthFailure
import SecureCnet.Client.Zeroization
import SecureCnet.Client.PacketQueue
import SecureCnet.Client.Pacing
import SecureCnet.World.Model
import SecureCnet.World.Nonces
import SecureCnet.World.Origin
import SecureCnet.World.Agreement
import SecureCnet.World.Copies
import SecureCnet.World.Duplication
import SecureCnet.Wrappers.Codec
import SecureCnet.Wrappers.NatHint
import SecureCnet.Wrappers.Stream
import SecureCnet.Wrappers.RequestReply
import SecureCnet.Wrappers.IoContext
