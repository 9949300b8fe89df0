import Peerpaste.Messages.Basic

/-!
This module contains the messages that are one request and one response: `Notification`, `Query`,
`CheckPredecessor` and the three that ask for peers.
-/

namespace Peerpaste

namespace Notification

def createRequest (rt : RoutingTable Peer) (transactionId : String) : Handled :=
  match rt.tryGetSelf with
  | none => ⟨rt, .failed, false, []⟩
  | some self =>
    if self.id = "" then
      ⟨rt, .failed, false, []⟩
    else
      match rt.tryGetSuccessor with
      | none => ⟨rt, .failed, false, []⟩
      | some target =>
        ⟨rt, .valid, false, [⟨Message.createRequest "notify" [self] transactionId, .peer target⟩]⟩

/--
A node without predecessor takes the first notifier but does not answer it. A table without self is
read as a default constructed peer.
-/
def handleRequest (rt : RoutingTable Peer) (request : RequestObject) (transactionId : String) :
    Handled :=
  match request.message.peers with
  | [notifyPeer] =>
    match rt.tryGetPredecessor with
    | none => ⟨rt.setPredecessor notifyPeer, .failed, false, []⟩
    | some predecessor =>
      let self := rt.tryGetSelf.getD default
      let rt :=
        if util.between predecessor.id notifyPeer.id self.id then
          rt.setPredecessor notifyPeer
        else
          rt
      ⟨rt, .done, true, [request.respond [] transactionId]⟩
  | _ => ⟨rt, .failed, false, []⟩

def handleResponse (rt : RoutingTable Peer) : Handled :=
  ⟨rt, .done, true, []⟩

end Notification

namespace Query

def createRequest (rt : RoutingTable Peer) (target : Peer) (transactionId : String) : Handled :=
  let self := rt.tryGetSelf.getD default
  ⟨rt, .valid, false, [⟨Message.createRequest "query" [self] transactionId, .peer target⟩]⟩

def handleRequest (sha256 : String → String) (rt : RoutingTable Peer) (request : RequestObject)
    (transactionId : String) : Option Handled :=
  match request.message.peers with
  | [] => none
  | peer :: _ =>
    let clientIp := request.getClientIp
    let clientId := util.generateSha256 sha256 clientIp peer.port
    let peer := { peer with ip := clientIp, id := clientId }
    some ⟨rt, .done, true, [request.respond [peer] transactionId]⟩

def handleResponse (rt : RoutingTable Peer) (response : RequestObject) : Handled × Option Peer :=
  match response.message.peers with
  | [peer] => (⟨rt.setSelf peer, .done, true, []⟩, some peer)
  | _ => (⟨rt, .failed, true, []⟩, none)

end Query

/-
The three messages below differ in their name, in the peers that the response carries and in whether
the response handler looks at the kind of the message.
-/

namespace GetPredAndSuccList

def createRequest (rt : RoutingTable Peer) (target : Peer) (transactionId : String) : Handled :=
  ⟨rt, .valid, false,
    [⟨Message.createRequest "get_predecessor_and_succ_list" [] transactionId, .peer target⟩]⟩

/--
A node without predecessor answers with no peers at all.
-/
def handleRequest (rt : RoutingTable Peer) (request : RequestObject) (transactionId : String) :
    Handled :=
  match rt.tryGetPredecessor with
  | some predecessor =>
    ⟨rt, .done, true, [request.respond (predecessor :: rt.getPeers) transactionId]⟩
  | none => ⟨rt, .done, true, [request.respond [] transactionId]⟩

def handleResponse (rt : RoutingTable Peer) (response : RequestObject) : Handled × List Peer :=
  if response.message.isRequest then
    (⟨rt, .failed, true, []⟩, [])
  else
    (⟨rt, .done, true, []⟩, response.message.peers)

end GetPredAndSuccList

namespace GetSelfAndSuccList

def createRequest (rt : RoutingTable Peer) (target : Peer) (transactionId : String) : Handled :=
  ⟨rt, .valid, false,
    [⟨Message.createRequest "get_self_and_successor_list" [] transactionId, .peer target⟩]⟩

def handleRequest (rt : RoutingTable Peer) (request : RequestObject) (transactionId : String) :
    Handled :=
  let self := rt.tryGetSelf.getD default
  ⟨rt, .done, true, [request.respond (self :: rt.getPeers) transactionId]⟩

def handleResponse (rt : RoutingTable Peer) (response : RequestObject) : Handled × List Peer :=
  if response.message.isRequest then
    (⟨rt, .failed, true, []⟩, [])
  else
    (⟨rt, .done, true, []⟩, response.message.peers)

end GetSelfAndSuccList

namespace GetSuccessorList

def createRequest (rt : RoutingTable Peer) (target : Peer) (transactionId : String) : Handled :=
  ⟨rt, .valid, false,
    [⟨Message.createRequest "get_successor_list" [] transactionId, .peer target⟩]⟩

def handleRequest (rt : RoutingTable Peer) (request : RequestObject) (transactionId : String) :
    Handled :=
  ⟨rt, .done, true, [request.respond rt.getPeers transactionId]⟩

def handleResponse (rt : RoutingTable Peer) (response : RequestObject) : Handled × List Peer :=
  (⟨rt, .done, true, []⟩, response.message.peers)

end GetSuccessorList

/--
`CheckPredecessor` keeps nothing of the peer that it asks. `handler` is the request whose response
handler it has registered, until the first response takes that out of the registry.
-/
structure CheckPredecessor where
  handler : Option RequestObject
  state : MessageState := .valid
  isDone : Bool := false
  deriving DecidableEq, Repr

namespace CheckPredecessor

def createRequest (node : Node) (transactionId : String) : Node × CheckPredecessor :=
  match node.routingTable.tryGetPredecessor with
  | none => (node, { handler := none, state := .failed, isDone := true })
  | some target =>
    let request := ⟨Message.createRequest "check_predecessor" [] transactionId, .peer target⟩
    ({ node with sendQueue := node.sendQueue ++ [request], checkPredecessorFlag := true },
      { handler := some request })

def handleRequest (rt : RoutingTable Peer) (request : RequestObject) (transactionId : String) :
    Handled :=
  ⟨rt, .done, true, [request.respond [] transactionId]⟩

def handleResponse (node : Node) (c : CheckPredecessor) (response : RequestObject) :
    Node × CheckPredecessor :=
  let node := { node with checkPredecessorFlag := false }
  if response.message.isRequest then
    ({ node with routingTable := node.routingTable.resetPredecessor }, { c with state := .failed })
  else
    (node, { c with state := .done, isDone := true })

def receive (node : Node) (c : CheckPredecessor) (response : RequestObject) :
    Node × CheckPredecessor :=
  match c.handler with
  | none => (node, c)
  | some _ => handleResponse node { c with handler := none } response

def handleFailed (node : Node) (c : CheckPredecessor) : Node × CheckPredecessor :=
  ({ node with routingTable := node.routingTable.resetPredecessor, checkPredecessorFlag := false },
    { c with state := .failed })

def timeOut (node : Node) (c : CheckPredecessor) : Node × CheckPredecessor :=
  if c.isDone then
    (node, c)
  else
    handleFailed node { c with state := .timedOut, isDone := true }

section Table

variable {node : Node} {c : CheckPredecessor} {response : RequestObject} {transactionId : String}

theorem createRequest_routingTable :
    (createRequest node transactionId).1.routingTable = node.routingTable := by
  unfold createRequest
  split
  . rfl
  . rfl

theorem receive_routingTable (hresponse : response.message.isRequest = false) :
    (c.receive node response).1.routingTable = node.routingTable := by
  unfold receive
  split
  . rfl
  . simp [handleResponse, hresponse]

theorem timeOut_routingTable :
    (c.timeOut node).1.routingTable
      =
    if c.isDone = false then node.routingTable.resetPredecessor else node.routingTable := by
  unfold timeOut handleFailed
  cases c.isDone with
  | true => rfl
  | false => rfl

theorem receive_isDone (hresponse : response.message.isRequest = false) (hdone : c.isDone) :
    (c.receive node response).2.isDone := by
  unfold receive
  split
  . exact hdone
  . simp [handleResponse, hresponse]

theorem timeOut_isDone : (c.timeOut node).2.isDone := by
  unfold timeOut handleFailed
  split
  . next h => exact h
  . rfl

end Table

end CheckPredecessor

end Peerpaste
