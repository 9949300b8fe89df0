import Peerpaste.RoutingTable.Basic

/-!
This module contains what the message classes share: the state of a message object, what handling a
message has done and the node that message objects work on.
-/

namespace Peerpaste

inductive MessageType where
  | unknown
  | notification
  | checkPredecessor
  | query
  | findSuccessor
  | join
  | getSuccessorList
  | getSelfAndSuccList
  | getPredAndSuccList
  | stabilize
  | broadcastFilelist
  | getFile
  deriving DecidableEq, Repr

/--
What one call into a message object did: the routing table it left, the state of the object and the
request objects it handed to `Notify`. A call that would take `front()` of an empty vector or use a
null peer has no `Handled`.
-/
structure Handled where
  routingTable : RoutingTable Peer
  state : MessageState
  isDone : Bool
  notified : List RequestObject := []
  deriving DecidableEq, Repr

namespace RequestObject

def respond (request : RequestObject) (peers : List Peer) (transactionId : String) :
    RequestObject where
  message := (request.message.generateResponse transactionId).setPeers peers
  connection := request.connection

@[simp]
theorem respond_peers (request : RequestObject) (peers : List Peer) (transactionId : String) :
    (request.respond peers transactionId).message.peers = peers := rfl

def hasPassed (request : RequestObject) (self : Peer) : Bool :=
  request.message.peers.any fun peer => peer.ip == self.ip && peer.port == self.port

theorem hasPassed_iff (request : RequestObject) (self : Peer) :
    request.hasPassed self = true ↔ self.endpoint ∈ request.message.peers.map Peer.endpoint := by
  simp only [hasPassed, List.any_eq_true, List.mem_map, Peer.endpoint, Endpoint.mk.injEq,
    Bool.and_eq_true, beq_iff_eq]

end RequestObject

structure Node where
  routingTable : RoutingTable Peer
  stabilizeFlag : Bool := false
  checkPredecessorFlag : Bool := false
  sendQueue : List RequestObject := []
  deriving DecidableEq, Repr

/--
A message object that another one waits for. `request` is the request whose response handler it has
registered, if it got as far as sending one.
-/
structure Dependency where
  type : MessageType
  request : Option RequestObject
  state : MessageState
  isDone : Bool
  deriving DecidableEq, Repr

def Handled.toDependency (h : Handled) (type : MessageType) : Dependency where
  type := type
  request := h.notified.head?
  state := h.state
  isDone := h.isDone

namespace Dependency

def isOutstanding (d : Dependency) : Bool :=
  d.request.isSome && !d.isDone

def waiting (type : MessageType) (r : RequestObject) : Dependency :=
  ⟨type, some r, .valid, false⟩

def answered (type : MessageType) (r : RequestObject) : Dependency :=
  ⟨type, some r, .done, true⟩

end Dependency

end Peerpaste
