import Peerpaste.Run.Basic
import Peerpaste.Run.Drain
import Peerpaste.Run.Progress
import Peerpaste.Order.Clockwise
import Peerpaste.Order.FiniteRing
import Peerpaste.Order.Last
import Peerpaste.Order.Orbit
import Peerpaste.Message.Basic
import Peerpaste.Message.Converter
import Peerpaste.Message.Serialized
import Peerpaste.Message.Framing
import Peerpaste.Session.Socket
import Peerpaste.Session.Write
import Peerpaste.Session.Channel
import Peerpaste.RoutingTable.Basic
import Peerpaste.RoutingTable.Invariant
import Peerpaste.RoutingTable.Validity
import Peerpaste.FileSystem.Basic
import Peerpaste.FileSystem.Stream
import Peerpaste.Storage.Basic
import Peerpaste.Storage.Index
import Peerpaste.Storage.Directory
import Peerpaste.Messages.Basic
import Peerpaste.Messages.Exchange
import Peerpaste.Messages.FindSuccessor
import Peerpaste.Messages.Factory
import Peerpaste.Messages.Join
import Peerpaste.Messages.Stabilize
import Peerpaste.Messages.Notified
import Peerpaste.Messages.GetFile
import Peerpaste.MessageHandler.Basic
import Peerpaste.MessageHandler.Predecessor
import Peerpaste.MessageHandler.Successor
import Peerpaste.MessageHandler.Answers
import Peerpaste.MessageHandler.View
import Peerpaste.MessageHandler.Exclusive
import Peerpaste.MessageHandler.Identity
import Peerpaste.Network.Basic
import Peerpaste.Network.Lookup
import Peerpaste.Network.Exchange
import Peerpaste.Network.Join
import Peerpaste.Network.FixedPoint
import Peerpaste.Network.ClosestPreceding
import Peerpaste.Network.Rounds
import Peerpaste.Network.Settle
import Peerpaste.Network.Integration
import Peerpaste.Network.Recovery
import Peerpaste.Network.Churn
import Peerpaste.Transfers.Basic
import Peerpaste.Transfers.Paths
import Peerpaste.Transfers.Download
import Peerpaste.Transfers.FailedWrite
import Peerpaste.Transfers.Resume
import Peerpaste.Transfers.History
import Peerpaste.Transfers.Tracked
import Peerpaste.Transfers.Origin
import Peerpaste.Transfers.Crash
import Peerpaste.Transfers.Verified
import Peerpaste.Network.Broadcast
import Peerpaste.Registry.ConcurrentSet
import Peerpaste.Registry.ConcurrentDeque
import Peerpaste.Registry.ConcurrentQueue
import Peerpaste.Registry.Delivery
import Peerpaste.Dispatcher.Object
import Peerpaste.Dispatcher.Basic
import Peerpaste.Dispatcher.Calls
import Peerpaste.Dispatcher.ActiveObject
import Peerpaste.Dispatcher.Invariant
import Peerpaste.Dispatcher.Clean
import Peerpaste.Dispatcher.Incomplete
import Peerpaste.Dispatcher.Received
import Peerpaste.Dispatcher.Terminal
import Peerpaste.Dispatcher.Broadcast
import Peerpaste.Rpc.Basic
import Peerpaste.Rpc.Potential
import Peerpaste.Lookups.Basic
import Peerpaste.Lookups.Correct
import Peerpaste.Lookups.Complete
import Peerpaste.Lookups.Bound
import Peerpaste.Locks.Scoped
import Peerpaste.Locks.Monitor
import Peerpaste.RoutingTable.WaitTilValid
import Peerpaste.Locks.Join
import Peerpaste.Locks.Discipline
import Peerpaste.Locks.Cycle
