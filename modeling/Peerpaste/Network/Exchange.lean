import Peerpaste.Messages.Factory
import Peerpaste.Messages.Join
import Peerpaste.Messages.Stabilize
import Peerpaste.Network.Lookup

/-!
This module contains failure-free runs of `Stabilize` and `Join` objects in a network: each request
of the object is handled by the node it is sent to, and the response, if there is one, goes back to
the object.
-/

namespace Peerpaste

namespace Network

/--
What comes from outside in one exchange of a message object with another node: the ids of the
messages that the two create, the connection and the hops of a lookup.
-/
structure Outside where
  transactionId : String
  responseId : String
  session : Session
  hops : Nat → Hop

/--
Send a request to the peer it is for. A peer at which nobody listens, and a handler that sends
nothing, give no response.
-/
def exchange (net : Network) (sha256 : String → String) (out : Outside) (target : Peer)
    (message : Message) : Option (Network × Option RequestObject) :=
  let e := target.endpoint
  if e ∈ net.endpoints then
    if message.header.requestType = "find_successor" then
      some (net, (net.lookup out.hops net.endpoints.card e message).map (⟨·, .session out.session⟩))
    else do
      let handled ← MessageFactory.handleRequest sha256 (net.table e)
        ⟨message, .session out.session⟩ out.responseId
      return (net.setTable e handled.routingTable, handled.notified.head?)
  else
    some (net, none)

structure Requester (O : Type) where
  outstanding : O → Option RequestObject
  receive : Node → O → RequestObject → String → Option (Node × O)
  timeOut : Node → O → Node × O

def stabilize : Requester Stabilize where
  outstanding s := s.dependencies.head?.bind fun d => if d.isDone then none else d.request
  receive node s response transactionId := some (s.receive node response transactionId)
  timeOut node s := s.timeOut node

def join : Requester Join where
  outstanding j := if j.dependency.isDone then none else j.dependency.request
  receive node j response transactionId := j.receive node response transactionId
  timeOut node j := j.timeOut node

/--
Run an object of the node at `e` through at most `fuel` exchanges. An object that gets no response
times out.
-/
def complete (requester : Requester O) (sha256 : String → String) (out : Nat → Outside)
    (e : Endpoint) : Nat → Network → Node → O → Option Network
  | 0, net, _, _ => some net
  | fuel + 1, net, node, o => do
    match requester.outstanding o with
    | some ⟨message, .peer target⟩ =>
      let (net, response) ← net.exchange sha256 (out fuel) target message
      let node := { node with routingTable := net.table e }
      match response with
      | some response =>
        let (node, o) ← requester.receive node o response (out fuel).transactionId
        complete requester sha256 out e fuel (net.setTable e node.routingTable) node o
      | none => return net.setTable e (requester.timeOut node o).1.routingTable
    | _ => return net.setTable e (requester.timeOut node o).1.routingTable

def stabilizeRound (net : Network) (sha256 : String → String) (out : Nat → Outside) (e : Endpoint) :
    Option Network :=
  let (node, s) := Stabilize.createRequest { routingTable := net.table e, stabilizeFlag := true }
    (out 3).transactionId
  complete stabilize sha256 out e 3 (net.setTable e node.routingTable) node s

def joinRound (net : Network) (sha256 : String → String) (out : Nat → Outside) (e : Endpoint)
    (address port : String) : Option Network :=
  let (node, j) := Join.createRequest { routingTable := net.table e } address port
    (out 3).transactionId
  complete join sha256 out e 3 (net.setTable e node.routingTable) node j

def reply (out : Outside) (message : Message) (peers : List Peer) : RequestObject :=
  RequestObject.respond ⟨message, .session out.session⟩ peers out.responseId

def queried (sha256 : String → String) (session : Session) (self : Peer) : Peer :=
  ⟨util.generateSha256 sha256 session.clientIp self.port, session.clientIp, self.port⟩

def notified (rt : RoutingTable Peer) (notifier : Peer) : RoutingTable Peer :=
  match rt.predecessor with
  | none => rt.setPredecessor notifier
  | some predecessor =>
    if Clockwise.Between predecessor.id notifier.id (rt.self.getD default).id then
      rt.setPredecessor notifier
    else
      rt

theorem notified_of_none {rt : RoutingTable Peer} {notifier : Peer} (h : rt.predecessor = none) :
    notified rt notifier = rt.setPredecessor notifier := by
  simp [notified, h]

theorem notified_of_between {rt : RoutingTable Peer} {self predecessor notifier : Peer}
    (hself : rt.self = some self) (hpred : rt.predecessor = some predecessor)
    (h : Clockwise.Between predecessor.id notifier.id self.id) :
    notified rt notifier = rt.setPredecessor notifier := by
  simp [notified, hself, hpred, h]

section Exchange

variable {net : Network} {sha256 : String → String} {out : Outside} {target : Peer} {id : String}

@[simp]
theorem reply_peers (message : Message) (peers : List Peer) :
    (reply out message peers).message.peers = peers := rfl

@[simp]
theorem reply_isRequest (message : Message) (peers : List Peer) :
    (reply out message peers).message.isRequest = false := rfl

theorem exchange_query (ht : target.endpoint ∈ net.endpoints) (self : Peer) :
    let message := Message.createRequest "query" [self] id
    net.exchange sha256 out target message
      =
    some (net, some (reply out message [queried sha256 out.session self])) := by
  simp [exchange, ht, MessageFactory.handleRequest, Query.handleRequest, reply, queried,
    RequestObject.getClientIp]

theorem exchange_findSuccessor (ht : target.endpoint ∈ net.endpoints) (peer : Peer) :
    let message := Message.createRequest "find_successor" [peer] id
    net.exchange sha256 out target message
      =
    some (net, (net.lookup out.hops net.endpoints.card target.endpoint message).map
      (⟨·, .session out.session⟩)) := by
  simp [exchange, ht]

theorem exchange_getSuccessorList (ht : target.endpoint ∈ net.endpoints) :
    let message := Message.createRequest "get_successor_list" [] id
    net.exchange sha256 out target message
      =
    some (net, some (reply out message (net.table target.endpoint).successorList)) := by
  simp [exchange, ht, MessageFactory.handleRequest, GetSuccessorList.handleRequest, reply,
    RoutingTable.getPeers]

theorem exchange_getPredAndSuccList (ht : target.endpoint ∈ net.endpoints) {predecessor : Peer}
    (hpred : (net.table target.endpoint).predecessor = some predecessor) :
    let message := Message.createRequest "get_predecessor_and_succ_list" [] id
    net.exchange sha256 out target message
      =
    some (net, some (reply out message
      (predecessor :: (net.table target.endpoint).successorList))) := by
  simp [exchange, ht, MessageFactory.handleRequest, GetPredAndSuccList.handleRequest, reply,
    RoutingTable.getPeers, RoutingTable.tryGetPredecessor, hpred]

theorem exchange_getSelfAndSuccList (ht : target.endpoint ∈ net.endpoints) {self : Peer}
    (hself : (net.table target.endpoint).self = some self) :
    let message := Message.createRequest "get_self_and_successor_list" [] id
    net.exchange sha256 out target message
      =
    some (net, some (reply out message (self :: (net.table target.endpoint).successorList))) := by
  simp [exchange, ht, MessageFactory.handleRequest, GetSelfAndSuccList.handleRequest, reply,
    RoutingTable.getPeers, RoutingTable.tryGetSelf, hself]

theorem exchange_notify (sha256 : String → String) (out : Outside) (id : String)
    (ht : target.endpoint ∈ net.endpoints) (self : Peer) :
    let message := Message.createRequest "notify" [self] id
    ∃ response, net.exchange sha256 out target message
      =
    some (net.setTable target.endpoint (notified (net.table target.endpoint) self), response) := by
  cases hpred : (net.table target.endpoint).predecessor with
  | none =>
    simp [exchange, ht, MessageFactory.handleRequest, Notification.handleRequest, notified,
      RoutingTable.tryGetPredecessor, hpred]
  | some predecessor =>
    simp [exchange, ht, MessageFactory.handleRequest, Notification.handleRequest, notified,
      RoutingTable.tryGetPredecessor, RoutingTable.tryGetSelf, hpred, util.between_iff]

end Exchange

theorem complete_of_response {requester : Requester O} {net net' : Network}
    {sha256 : String → String} {out : Nat → Outside} {e : Endpoint} {fuel : Nat}
    {node node' : Node} {o o' : O}
    {message : Message} {target : Peer} {response : RequestObject}
    (hout : requester.outstanding o = some ⟨message, .peer target⟩)
    (hexchange : net.exchange sha256 (out fuel) target message = some (net', some response))
    (hreceive : requester.receive { node with routingTable := net'.table e } o response
      (out fuel).transactionId = some (node', o')) :
    complete requester sha256 out e (fuel + 1) net node o
      =
    complete requester sha256 out e fuel (net'.setTable e node'.routingTable) node' o' := by
  simp only [complete, hout, hexchange, Option.bind_eq_bind, Option.bind_some, hreceive]

section Stabilize

variable {net : Network} {sha256 : String → String} {out : Nat → Outside} {e : Endpoint}
  {self successor predecessor : Peer}

@[simp]
theorem stabilize_receive (node : Node) (s : Stabilize) (response : RequestObject) (id : String) :
    stabilize.receive node s response id = some (s.receive node response id) := rfl

@[simp]
theorem stabilize_timeOut (node : Node) (s : Stabilize) :
    stabilize.timeOut node s = s.timeOut node := rfl

theorem stabilize_outstanding {s : Stabilize} {type : MessageType} {r : RequestObject}
    {ds : List Dependency} (hs : s.dependencies = Dependency.waiting type r :: ds) :
    stabilize.outstanding s = some r := by
  simp [stabilize, hs, Dependency.waiting]

theorem complete_stabilize_of_isDone {s : Stabilize} {node : Node} (fuel : Nat) (hs : s.isDone)
    (hd : ∀ d ∈ s.dependencies.head?, d.isDone) (hnode : node.routingTable = net.table e) :
    complete stabilize sha256 out e fuel net node s = some net := by
  cases fuel with
  | zero => rfl
  | succ fuel =>
    have hout : stabilize.outstanding s = none := by
      simp only [stabilize]
      cases hhead : s.dependencies.head? with
      | none => rfl
      | some d => simp [hd d hhead]
    simp [complete, hout, Stabilize.timeOut, hs, hnode]

theorem complete_notification {s : Stabilize} {node : Node} {d : Dependency} {ds : List Dependency}
    (fuel : Nat) (id : String)
    (hs : s.dependencies = Dependency.waiting .notification
      ⟨Message.createRequest "notify" [self] id, .peer successor⟩ :: d :: ds)
    (hdone : s.isDone = false) (ht : successor.endpoint ∈ net.endpoints) :
    complete stabilize sha256 out e (fuel + 1) net node s
      =
    some (net.setTable successor.endpoint
      (notified (net.table successor.endpoint) self)) := by
  -- the last exchange of a round, which is not its first: whether the notify is answered or not,
  -- only the table of its target changes
  rcases exchange_notify sha256 (out fuel) id ht self with
    ⟨response, hexchange⟩
  simp only [complete, stabilize_outstanding hs, hexchange, Option.bind_eq_bind, Option.bind_some]
  cases response with
  | none => simp [Stabilize.timeOut, hdone, Stabilize.handleFailed, hs]
  | some response =>
    simp only [stabilize_receive, Option.bind_some, Stabilize.receive_notification hs,
      setTable_eq_self]
    apply complete_stabilize_of_isDone
    . rfl
    . simp [Dependency.answered]
    . rfl

theorem stabilizeRound_of_not_between (hself : (net.table e).self = some self) (hid : self.id ≠ "")
    (hsucc : (net.table e).tryGetSuccessor = some successor)
    (hs : successor.endpoint ∈ net.endpoints)
    (hpred : (net.table successor.endpoint).predecessor = some predecessor)
    (hlist : (net.table successor.endpoint).successorList ≠ [])
    (hbetween : ¬ Clockwise.Between self.id predecessor.id successor.id) :
    let net' := net.setTable e ((net.table e).replaceSuccessorList
      (successor :: (net.table successor.endpoint).successorList))
    net.stabilizeRound sha256 out e
      =
    some (net'.setTable successor.endpoint (notified (net'.table successor.endpoint) self)) := by
  intro net'
  simp only [stabilizeRound]
  rw [Stabilize.createRequest_eq hsucc]
  simp only [setTable_eq_self]
  rw [complete_of_response (stabilize_outstanding rfl) (exchange_getPredAndSuccList hs hpred)]
  rotate_left
  . rw [stabilize_receive, Stabilize.receive_getPredAndSuccList rfl (reply_isRequest _ _),
      reply_peers, Stabilize.handleGetPredAndSuccListNotify_keep hself hid hsucc hlist hbetween]
  . apply complete_notification 1 (out 2).transactionId
    . rfl
    . rfl
    . exact hs

theorem stabilizeRound_of_between (hself : (net.table e).self = some self) (hid : self.id ≠ "")
    (hsucc : (net.table e).tryGetSuccessor = some successor)
    (hs : successor.endpoint ∈ net.endpoints)
    (hpred : (net.table successor.endpoint).predecessor = some predecessor)
    (hlist : (net.table successor.endpoint).successorList ≠ [])
    (hbetween : Clockwise.Between self.id predecessor.id successor.id)
    (hp : predecessor.endpoint ∈ net.endpoints) (hne : predecessor.endpoint ≠ e)
    (hpself : (net.table predecessor.endpoint).self = some predecessor) :
    let net' := net.setTable e ((net.table e).replaceSuccessorList
      (predecessor :: (net.table predecessor.endpoint).successorList))
    net.stabilizeRound sha256 out e
      =
    some (net'.setTable predecessor.endpoint
      (notified (net'.table predecessor.endpoint) self)) := by
  intro net'
  simp only [stabilizeRound]
  rw [Stabilize.createRequest_eq hsucc]
  simp only [setTable_eq_self]
  rw [complete_of_response (stabilize_outstanding rfl) (exchange_getPredAndSuccList hs hpred)]
  rotate_left
  . rw [stabilize_receive, Stabilize.receive_getPredAndSuccList rfl (reply_isRequest _ _),
      reply_peers, Stabilize.handleGetPredAndSuccListNotify_adopt hself hsucc hlist hbetween]
  rw [complete_of_response (stabilize_outstanding rfl)]
  rotate_left
  . apply exchange_getSelfAndSuccList
    . exact hp
    . rw [setTable_table_of_ne hne]
      exact hpself
  . rw [stabilize_receive, Stabilize.receive_getSelfAndSuccList rfl (reply_isRequest _ _),
      reply_peers, setTable_table_of_ne hne, setTable_table_self,
      Stabilize.handleGetSelfAndSuccListNotify_eq hself hid]
  . rw [setTable_setTable]
    apply complete_notification 0 (out 1).transactionId
    . rfl
    . rfl
    . exact hp

end Stabilize

section Join

variable {net : Network} {sha256 : String → String} {out : Nat → Outside} {e : Endpoint}
  {init m s q : Peer}

@[simp]
theorem join_receive (node : Node) (j : Join) (response : RequestObject) (id : String) :
    join.receive node j response id = j.receive node response id := rfl

theorem join_outstanding {j : Join} {type : MessageType} {r : RequestObject}
    (hj : j.dependency = .waiting type r) : join.outstanding j = some r := by
  simp [join, hj, Dependency.waiting]

theorem joinRound_eq (hself : (net.table e).self = some init)
    (hlist : (net.table e).successorList = [q]) (hm : m.endpoint ∈ net.endpoints)
    (hs : s.endpoint ∈ net.endpoints) (hne : s.endpoint ≠ e)
    (hlookup : ∃ response,
      (net.setTable e ((net.table e).setSelf (queried sha256 (out 2).session init))).lookup
          (out 1).hops net.endpoints.card m.endpoint
          (Message.createRequest "find_successor"
            [⟨(queried sha256 (out 2).session init).id, "", ""⟩] (out 2).transactionId)
        = some response ∧ response.peers = [s]) :
    net.joinRound sha256 out e m.ip m.port
      =
    some (net.setTable e ⟨queried sha256 (out 2).session init, (net.table e).predecessor,
      RoutingTable.resize (s :: (net.table s.endpoint).successorList)⟩) := by
  rcases hlookup with ⟨response, hlookup, hpeers⟩
  let n := queried sha256 (out 2).session init
  let net' := net.setTable e ((net.table e).setSelf n)
  have hjoined : (net'.table e).setSuccessor s = ⟨n, (net.table e).predecessor, [s]⟩ := by
    simp [net', RoutingTable.setSelf, RoutingTable.setSuccessor, hlist]
  -- the query goes to an address, whose peer is not known yet
  let target : Peer := ⟨"", m.ip, m.port⟩
  have htarget : target.endpoint ∈ net.endpoints := hm
  have hfind : net'.exchange sha256 (out 1) target
      (Message.createRequest "find_successor" [⟨n.id, "", ""⟩] (out 2).transactionId)
      = some (net', some ⟨response, .session (out 1).session⟩) := by
    have htarget' : target.endpoint ∈ net'.endpoints := hm
    rw [exchange_findSuccessor htarget']
    exact congrArg (fun answer => some (net', answer)) (congrArg (Option.map _) hlookup)
  simp only [joinRound]
  rw [Join.createRequest_eq hself]
  simp only [setTable_eq_self]
  rw [complete_of_response (join_outstanding rfl) (exchange_query htarget init)]
  rotate_left
  . rw [join_receive, Join.receive_query rfl (reply_peers _ _)]
  rw [complete_of_response (join_outstanding rfl) hfind]
  rotate_left
  . rw [join_receive, Join.receive_findSuccessor rfl hpeers]
  rw [complete_of_response (join_outstanding rfl)]
  rotate_left
  . apply exchange_getSuccessorList
    exact hs
  . rw [hjoined, setTable_table_self, join_receive, Join.receive_getSuccessorList rfl rfl]
  simp [complete, net', n, setTable_table_of_ne hne, RoutingTable.replaceSuccessorList]

end Join

end Network

end Peerpaste
