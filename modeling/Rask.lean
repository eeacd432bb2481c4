import Rask.Framework.System
import Rask.Framework.Lexical
import Rask.Target
import Rask.Fragmentation
import Rask.Confinement
import Rask.Bounds
import Rask.PoolSteps
import Rask.Slots
import Rask.StartedPool
import Rask.Ownership
import Rask.Signals
import Rask.DynamicBuffer
import Rask.Framework.Framing
import Rask.Response
import Rask.ConnectionHandler
import Rask.Replies
import Rask.Answers
import Rask.ResponseFraming
import Rask.ConnectionFate
import Rask.Silent
import Rask.Extension
import Rask.Delivery
import Rask.Framework.Block
import Rask.RawBuffer
import Rask.BufferBounds
import Rask.ByteList
import Rask.ActiveCount
import Rask.WorkerLimit
import Rask.PoolSize
import Rask.RunningPool
import Rask.SoftKill
import Rask.SystemCalls
import Rask.FileAccess
import Rask.Query
import Rask.WholeHeads
import Rask.PostBody
import Rask.Pipelining
import Rask.Assembly
import Rask.OneResponse
import Rask.ConditionalGet
import Rask.Framework.Ledger
import Rask.Tracked
import Rask.Leaks
import Rask.WholeResponses
import Rask.ChildProcess
import Rask.ScriptReplies
import Rask.Scripts
import Rask.PipeEnds
import Rask.Reaping
import Rask.ScriptLeaks
import Rask.Dates
import Rask.Termination
import Rask.Framework.Loops
import Rask.Framework.Histories
import Rask.Framework.Handles
import Rask.Watcher
import Rask.FileLoop
import Rask.VanishedClient
import Rask.Handles
import Rask.BodyBoundary
import Rask.TargetSplit
import Rask.ScriptOutput
import Rask.AppendedNumbers
import Rask.DateArrays
import Rask.Configuration
import Rask.HeaderLookup
import Rask.Framework.Fairness
import Rask.Liveness
import Rask.Destroying
import Rask.ClosedConnections
import Rask.ClosedPool
import Rask.Teardown
import Rask.ShutDown
import Rask.Framework.Simulation
import Rask.SharedMutex
import Rask.Framework.Fifo
import Rask.PipeTraffic
import Rask.ScriptCalls
import Rask.ScriptCensus
import Rask.ScriptConversation
import Rask.ScriptReturns
import Rask.ServedClients
import Rask.CachingClient
import Rask.ServedScripts
