import Aesd.Lib.Loop
import Aesd.Lib.Heap
import Aesd.Lib.BoundedFifo
import Aesd.Lib.Framing
import Aesd.Lib.Concurrency
import Aesd.Driver.CircularBuffer.Walk
import Aesd.Driver.Device
import Aesd.Driver.Ownership
import Aesd.Driver.Write.Round
import Aesd.Driver.Write.Call
import Aesd.Driver.Write.Stream
import Aesd.Driver.Write.Failure
import Aesd.Driver.Unload
import Aesd.Driver.Write.Interleaving
import Aesd.Driver.FileOps
import Aesd.Driver.Locking
import Aesd.Driver.CircularBuffer.Lookup
import Aesd.Driver.Read
import Aesd.Driver.Seek
import Aesd.Lib.CText
import Aesd.Lib.Reactive
import Aesd.Server.Connection
import Aesd.Server.SeekCommand
import Aesd.Server.Session
import Aesd.Server.Segmentation
import Aesd.Driver.Write.Termination
import Aesd.Driver.Reachable
import Aesd.Driver.CircularBuffer.Places
import Aesd.Server.Transfer
import Aesd.Server.Receive
import Aesd.Server.Dispatch
import Aesd.Server.Resources
import Aesd.Lib.Shared
import Aesd.Server.Requests
import Aesd.Server.System
import Aesd.Server.Serial
import Aesd.Driver.Dump
import Aesd.Driver.ReadFailure
import Aesd.Lib.Interrupts
import Aesd.Server.Shutdown
import Aesd.Lib.LogDevice
import Aesd.Driver.ReadResult
import Aesd.Driver.Refinement
import Aesd.Lib.MutualExclusion
import Aesd.Server.Exclusion
import Aesd.Server.Stall
import Aesd.Server.HoldTime
import Aesd.Lib.Cancellation
import Aesd.Lib.Messages
import Aesd.Server.Syslog
import Aesd.Server.Deadlock
import Aesd.Examples.Threading
import Aesd.Server.Arguments
import Aesd.Lib.LinkedList
import Aesd.Server.Main
import Aesd.Server.MainRefinement
import Aesd.Server.Lifetime
import Aesd.Driver.Module
import Aesd.Lib.Descriptors
import Aesd.Server.Daemon
import Aesd.Examples.SystemCalls
import Aesd.Examples.Children
