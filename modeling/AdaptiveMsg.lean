import AdaptiveMsg.Machine.Run
import AdaptiveMsg.Machine.Pool
import AdaptiveMsg.Machine.Gapless
import AdaptiveMsg.Machine.Ledger
import AdaptiveMsg.Recovery.AckTimer
import AdaptiveMsg.Stream.SendRecv
import AdaptiveMsg.Stream.Handler
import AdaptiveMsg.Stream.Inbox
import AdaptiveMsg.Stream.Fin
import AdaptiveMsg.Streams.Model
import AdaptiveMsg.Streams.Callbacks
import AdaptiveMsg.Lifecycle.Model
import AdaptiveMsg.Lifecycle.Steps
import AdaptiveMsg.Lifecycle.Reconnect
import AdaptiveMsg.Lifecycle.PeerClose
import AdaptiveMsg.Lifecycle.Expiry
import AdaptiveMsg.Lifecycle.Handles
import AdaptiveMsg.Lifecycle.Newest
import AdaptiveMsg.Protocol.Model
import AdaptiveMsg.Protocol.Flow
import AdaptiveMsg.Protocol.Acks
import AdaptiveMsg.Protocol.Lanes
import AdaptiveMsg.Protocol.Delivery
import AdaptiveMsg.Protocol.Readers
import AdaptiveMsg.Close.Model
import AdaptiveMsg.Close.Graceful
import AdaptiveMsg.Close.Sends
import AdaptiveMsg.Bytes.BigEndian
import AdaptiveMsg.Bytes.Reads
import AdaptiveMsg.Wire.Header
import AdaptiveMsg.Wire.FrameStream
import AdaptiveMsg.Wire.Handshake
import AdaptiveMsg.Wire.Control
import AdaptiveMsg.Protocol.AnyPeer
import AdaptiveMsg.Client.Connect
import AdaptiveMsg.Streams.Ids
import AdaptiveMsg.Streams.Reserved
import AdaptiveMsg.Streams.Knowing
import AdaptiveMsg.Streams.Reopening
import AdaptiveMsg.Streams.Finished
import AdaptiveMsg.Streams.Cancellation
import AdaptiveMsg.Server.Model
import AdaptiveMsg.Server.Shutdown
import AdaptiveMsg.Protocol.Idle
import AdaptiveMsg.Backpressure.Model
import AdaptiveMsg.Backpressure.Sends
import AdaptiveMsg.Backpressure.Progress
import AdaptiveMsg.Search.PartitionPoint
import AdaptiveMsg.Replay.Calls
import AdaptiveMsg.Writer.Model
import AdaptiveMsg.Writer.Steps
import AdaptiveMsg.Writer.Numbers
import AdaptiveMsg.Writer.LastWord
import AdaptiveMsg.Writer.Wakeups
import AdaptiveMsg.Machine.Monitor
import AdaptiveMsg.Bytes.Leb128
import AdaptiveMsg.Codec.Postcard
import AdaptiveMsg.Recovery.Options
import AdaptiveMsg.Wire.Attach
import AdaptiveMsg.Recovery.AckSchedule
import AdaptiveMsg.Recovery.Deadline
import AdaptiveMsg.Stream.Delivery
import AdaptiveMsg.Server.Attach
import AdaptiveMsg.Streams.Closing
import AdaptiveMsg.Stream.Dropped
import AdaptiveMsg.Codec.Compact
import AdaptiveMsg.Amgen.WireNames
import AdaptiveMsg.Amgen.ByteSlices
import AdaptiveMsg.Machine.Leads
import AdaptiveMsg.Link.Plain
import AdaptiveMsg.Link.Flow
import AdaptiveMsg.Link.Delivery
import AdaptiveMsg.Link.Drains
import AdaptiveMsg.Writer.Sleeps
import AdaptiveMsg.Owner
import AdaptiveMsg.Stream.Frames
import AdaptiveMsg.Link.Messages
import AdaptiveMsg.Link.Arrival
import AdaptiveMsg.Server.Resumable
import AdaptiveMsg.Waits
import AdaptiveMsg.Stream.Receivers
import AdaptiveMsg.Codec.Typed
import AdaptiveMsg.Protocol.Messages
import AdaptiveMsg.Protocol.Arrival
