import ProjectE.Lib.Transition
import ProjectE.Lib.Protocol
import ProjectE.Lib.Custody
import ProjectE.Lib.Accumulator
import ProjectE.Lib.Word
import ProjectE.Lib.Framing
import ProjectE.Lib.OrdMap
import ProjectE.Lib.Lock
import ProjectE.Lib.Grid
import ProjectE.Lib.Trace
import ProjectE.Lib.FreeList
import ProjectE.Lib.Loop
import ProjectE.Lib.Numeral
import ProjectE.Lib.Lines
import ProjectE.Lib.Linear
import ProjectE.Lib.Fifo
import ProjectE.Lib.Census
import ProjectE.Io.Buffer
import ProjectE.Io.ReadFifo
import ProjectE.Io.Cursors
import ProjectE.Io.BufWriter
import ProjectE.Io.Write
import ProjectE.Io.BufWriting
import ProjectE.Io.Read
import ProjectE.Io.Source
import ProjectE.Net.Packet
import ProjectE.Net.SocketAddr
import ProjectE.Net.AddrOrder
import ProjectE.Net.Sockaddr
import ProjectE.Net.AddrParse
import ProjectE.Net.AddrText
import ProjectE.Net.Poll
import ProjectE.Net.PollTable
import ProjectE.Net.BaseServer
import ProjectE.Net.ReadPath
import ProjectE.Net.Tables
import ProjectE.Net.ContextLoop
import ProjectE.Net.SendPath
import ProjectE.Net.Context
import ProjectE.Net.Requests
import ProjectE.Net.Registered
import ProjectE.Net.Dispatch
import ProjectE.Net.Server
import ProjectE.Net.Datagram
import ProjectE.Net.Handshake
import ProjectE.Net.SessionTable
import ProjectE.Net.Delivery
import ProjectE.Net.Binding
import ProjectE.Net.Recipients
import ProjectE.Net.Setup
import ProjectE.Net.RunningFlag
import ProjectE.Net.Handed
import ProjectE.Net.Release
import ProjectE.Threads.System
import ProjectE.Threads.View
import ProjectE.Threads.Alone
import ProjectE.Threads.Locks
import ProjectE.Threads.Deadlock
import ProjectE.Threads.Callbacks
import ProjectE.Threads.Lifetime
import ProjectE.Threads.Stream
import ProjectE.Threads.Teardown
import ProjectE.Threads.Reassembly
import ProjectE.Ecs.ComponentPool
import ProjectE.Ecs.ArchetypePool
import ProjectE.Ecs.EntityManager
import ProjectE.Ecs.Slots
import ProjectE.Ecs.Allocation
import ProjectE.Ecs.Destruction
import ProjectE.Ecs.Batch
import ProjectE.Ecs.Query
import ProjectE.Ecs.Archetypes
import ProjectE.Ecs.SystemTree
import ProjectE.Ecs.Insertion
import ProjectE.Ecs.RunOrder
import ProjectE.Ecs.Registration
import ProjectE.Ecs.Iteration
import ProjectE.Ecs.Coverage
import ProjectE.Ecs.SelfCross
import ProjectE.Ecs.Reuse
import ProjectE.Ecs.Ranges
import ProjectE.Ecs.Time
import ProjectE.Ecs.Running
import ProjectE.Ecs.World
import ProjectE.Ecs.Owned
import ProjectE.Ecs.Growth
import ProjectE.Ecs.PoolIds
import ProjectE.Ecs.Status
import ProjectE.Ecs.Defaults
import ProjectE.Render.Animation
import ProjectE.Log.Format
import ProjectE.Threads.TsQueue
import ProjectE.Threads.QueueProgress
import ProjectE.Net.Linking
import ProjectE.Net.Exchange
import ProjectE.Threads.EndToEnd
import ProjectE.Lib.Rows
import ProjectE.Ecs.History
import ProjectE.Ecs.Store
import ProjectE.Ecs.Resting
import ProjectE.Ecs.StartCallback
import ProjectE.Render.Frame
import ProjectE.Render.Painting
import ProjectE.Spatial2d.Motion
import ProjectE.Net.Sessions
import ProjectE.Lib.Parallel
import ProjectE.Ecs.Parallel
import ProjectE.Log.LogFile
import ProjectE.Net.Authorship
import ProjectE.Ecs.DualRun
import ProjectE.Net.Interest
import ProjectE.Net.Draining
