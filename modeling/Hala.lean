import Hala.Lib.Scan
import Hala.Lib.Incremental
import Hala.Io.ReadBuf
import Hala.Http.Parse
import Hala.Http.Checked
import Hala.Http.Limits
import Hala.Http.Scanner
import Hala.Theorems.Http.Refine
import Hala.Theorems.Http.Total
import Hala.Theorems.Http.Stable
import Hala.Theorems.Http.Head
import Hala.Theorems.Http.Run
import Hala.Theorems.Http.Fragmentation
import Hala.Theorems.Http.RoundTrip
import Hala.Theorems.Http.Grammar
import Hala.Theorems.Http.Limits
import Hala.Lib.Machine
import Hala.Lib.Tasks
import Hala.Sync.Maker
import Hala.Theorems.Sync.Maker
import Hala.Sync.Spin
import Hala.Theorems.Sync.Spin
import Hala.Lockfree.Queue
import Hala.Theorems.Lockfree.Queue
import Hala.Theorems.Lockfree.QueueLen
import Hala.Future.Batching
import Hala.Theorems.Future.Batching
import Hala.Theorems.Future.Closing
import Hala.Lockfree.TimeWheel
import Hala.Theorems.Lockfree.TimeWheel
import Hala.Lockfree.WheelCalls
import Hala.Theorems.Lockfree.WheelCalls
import Hala.Theorems.Lockfree.WheelCount
import Hala.Theorems.Lockfree.Ticking
import Hala.Theorems.Lockfree.Deadlines
import Hala.Io.Poller
import Hala.Io.Sleep
import Hala.Theorems.Io.Poller
import Hala.Theorems.Io.Sleep
import Hala.Theorems.Io.Timeout
import Hala.Lib.EdgeTriggered
import Hala.Lib.Radix
import Hala.Io.Driver
import Hala.Theorems.Io.Driver
import Hala.Future.EventMap
import Hala.Future.Waits
import Hala.Future.CondVar
import Hala.Theorems.Future.Waits
import Hala.Theorems.Future.CondVar
import Hala.Quic.Quiche
import Hala.Quic.Conn
import Hala.Quic.ConnTasks
import Hala.Quic.ConnCalls
import Hala.Quic.Streams
import Hala.Quic.QuicStream
import Hala.Quic.Credit
import Hala.Quic.ConnPool
import Hala.Quic.Connector
import Hala.Quic.Listener
import Hala.Quic.Server
import Hala.Quic.ListenerCalls
import Hala.Quic.Sample
import Hala.Theorems.Future.EventMap
import Hala.Theorems.Quic.Mediator
import Hala.Theorems.Quic.Waiters
import Hala.Theorems.Quic.Announce
import Hala.Theorems.Quic.Closed
import Hala.Theorems.Quic.StreamClose
import Hala.Theorems.Quic.Tables
import Hala.Theorems.Quic.Credit
import Hala.Theorems.Quic.Accept
import Hala.Theorems.Quic.CloseOnce
import Hala.Theorems.Quic.Release
import Hala.Theorems.Quic.Kept
import Hala.Theorems.Quic.EndOfStream
import Hala.Theorems.Quic.Drain
import Hala.Theorems.Quic.Conn
import Hala.Theorems.Quic.Timers
import Hala.Theorems.Quic.ConnPool
import Hala.Theorems.Quic.Listener
import Hala.Theorems.Quic.ListenerClose
import Hala.Theorems.Quic.Token
import Hala.Theorems.Quic.Server
import Hala.Theorems.Quic.Routing
import Hala.Theorems.Quic.RecvLoop
import Hala.Theorems.Quic.Atomic
import Hala.Theorems.Quic.Forward
import Hala.Udp.Group
import Hala.Theorems.Udp.Bind
import Hala.Theorems.Udp.Group
import Hala.Theorems.Udp.Buffers
import Hala.LevelDb.Api
import Hala.LevelDb.Database
import Hala.LevelDb.KeyValue
import Hala.Theorems.LevelDb.Snapshot
import Hala.Theorems.LevelDb.Delete
import Hala.Theorems.LevelDb.Typed
import Hala.Theorems.LevelDb.Iteration
import Hala.Lib.Intern
import Hala.Lib.Wire
import Hala.Pprof.Gperf
import Hala.Pprof.WireFormat
import Hala.Theorems.Pprof.Gperf
import Hala.Theorems.Pprof.Written
import Hala.Lib.Shared
import Hala.Quic.Handles
import Hala.Theorems.Quic.Handles
import Hala.Pprof.Profile
import Hala.Pprof.Report
import Hala.Theorems.Pprof.Report
import Hala.Theorems.Pprof.Profile
import Hala.Theorems.Pprof.Rebuild
import Hala.Io.DriverExt
import Hala.Theorems.Io.DriverExt
import Hala.Lib.Tally
import Hala.Pprof.Heap
import Hala.Theorems.Pprof.Heap
import Hala.Pprof.Cpu
import Hala.Theorems.Pprof.Cpu
import Hala.Rproxy.Rproxy
import Hala.Theorems.Rproxy.Rproxy
import Hala.Lib.Merge
import Hala.Rproxy.Gateway
import Hala.Theorems.Rproxy.Gateway
import Hala.Lib.Program
import Hala.Tls.Bridge
import Hala.Tls.Stream
import Hala.Theorems.Tls.Stream
import Hala.Lib.Boxes
import Hala.Io.Mio
import Hala.Theorems.Io.Mio
import Hala.Net.Sockets
import Hala.Theorems.Net.Sockets
import Hala.Theorems.Pprof.Parts
