import Adbcpp.Library.Prog
import Adbcpp.Protocol.Message
import Adbcpp.Session
import Adbcpp.Session.Inbound
import Adbcpp.Session.Boundaries
import Adbcpp.Session.Outbound
import Adbcpp.Session.RoundTrip
import Adbcpp.Channel
import Adbcpp.Connection
import Adbcpp.Stream
import Adbcpp.Stream.Reading
import Adbcpp.Stream.Lockstep
import Adbcpp.Stream.Exchange
import Adbcpp.Stream.Isolation
import Adbcpp.Stream.Delivery
import Adbcpp.Usb.Delivery
import Adbcpp.Compression
import Adbcpp.Compression.Streaming
import Adbcpp.LocalFile
import Adbcpp.Sync
import Adbcpp.Stream.Writing
import Adbcpp.Sync.Replies
import Adbcpp.Sync.Pull
import Adbcpp.Sync.Wire
import Adbcpp.Sync.Push
import Adbcpp.Sync.PullV2
import Adbcpp.Compression.Frames
import Adbcpp.Compression.Stored
import Adbcpp.Sync.PushV2
import Adbcpp.Sync.Sizes
import Adbcpp.Library.Notes
import Adbcpp.Sync.List
import Adbcpp.Sync.Refusal
import Adbcpp.Sync.Buffers
import Adbcpp.Sync.Caps
import Adbcpp.Sync.Overlong
import Adbcpp.Handshake
import Adbcpp.Handshake.Conformance
import Adbcpp.Stream.Taking
import Adbcpp.Stream.Opening
import Adbcpp.Streams
import Adbcpp.Streams.Effects
import Adbcpp.Streams.Ownership
import Adbcpp.Streams.Silence
import Adbcpp.Stream.Serving
import Adbcpp.Streams.Multiplexing
import Adbcpp.Library.Triple
import Adbcpp.Streams.FlowControl
import Adbcpp.Stream.Failures
import Adbcpp.Sync.Limit
import Adbcpp.App
import Adbcpp.Stream.Limits
import Adbcpp.Stream.Identity
import Adbcpp.Calls
import Adbcpp.Calls.Limits
import Adbcpp.Library.Framing
import Adbcpp.Shell.Packets
import Adbcpp.App.Answers
import Adbcpp.Handshake.Banner
import Adbcpp.Library.ShellWords
import Adbcpp.App.Quoting
import Adbcpp.Usb.Devices
import Adbcpp.Usb.Selection
import Adbcpp.Handshake.Signing
import Adbcpp.Streams.Ids
import Adbcpp.Sync.Steps
import Adbcpp.Sync.Paths
import Adbcpp.Compression.Endings
import Adbcpp.Stream.Successes
import Adbcpp.Compression.OneStream
import Adbcpp.Sync.Endings
import Adbcpp.Session.Metered
import Adbcpp.Session.Acceptance
import Adbcpp.Usb.Waiting
import Adbcpp.Library.Narrowing
import Adbcpp.Usb.Writing
import Adbcpp.Handshake.Retry
import Adbcpp.Tcp.Writing
import Adbcpp.Transport.Waiting
import Adbcpp.Crypto.PublicKey
import Adbcpp.Crypto.KeyStore
import Adbcpp.Crypto.Recovery
import Adbcpp.Sync.Storage
import Adbcpp.Stream.Services
import Adbcpp.Sync.Creating
import Adbcpp.App.Installing
import Adbcpp.Usb.Parsing
import Adbcpp.Usb.Interfaces
import Adbcpp.Compression.Stalling
import Adbcpp.Sessions
import Adbcpp.Sessions.Ownership
import Adbcpp.Library.Replay
import Adbcpp.Library.Spelling
import Adbcpp.Stream.Replaying
import Adbcpp.Sync.Replaying
import Adbcpp.Session.Wire
import Adbcpp.Session.Replaying
import Adbcpp.Session.Scripting
import Adbcpp.Client
import Adbcpp.Client.Adequacy
import Adbcpp.Tcp.Transport
import Adbcpp.Usb.Link
import Adbcpp.Library.Registry
import Adbcpp.Usb.Handles
import Adbcpp.Usb.Holding
import Adbcpp.Tcp.Opening
import Adbcpp.Tcp.Sockets
import Adbcpp.Library.Locking
import Adbcpp.Log
import Adbcpp.Log.Deliveries
import Adbcpp.Calls.Steps
import Adbcpp.Calls.Episodes
import Adbcpp.Session.Feeding
import Adbcpp.Testing.MockTransport
import Adbcpp.Sync.RoundTrip
import Adbcpp.Client.Usage
import Adbcpp.Client.Transports
import Adbcpp.Sync.Stat
import Adbcpp.Calls.Requests
