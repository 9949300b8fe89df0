import Peerpaste.Messages.Exchange
import Peerpaste.Messages.FindSuccessor
import Peerpaste.RoutingTable.Invariant

/-!
This module contains the `Join` message: it queries a node of the ring for its own peer, lets it
look up the successor of its id and takes over the successor list of that successor.
-/

namespace Peerpaste

/--
A `Join` has one dependency at a time, `dependencies_` is cleared before the next one is put in.
-/
structure Join where
  target : Peer
  dependency : Dependency
  state : MessageState := .valid
  isDone : Bool := false
  deriving DecidableEq, Repr

namespace Join

def start (node : Node) (j : Join) (type : MessageType) (h : Handled) : Node × Join :=
  ({ node with sendQueue := node.sendQueue ++ h.notified },
    { j with dependency := h.toDependency type })

def fail (node : Node) (j : Join) : Node × Join :=
  (node, { j with state := .failed, isDone := true })

def createRequest (node : Node) (address port : String) (transactionId : String) : Node × Join :=
  let target : Peer := ⟨"", address, port⟩
  let h := Query.createRequest node.routingTable target transactionId
  start node { target := target, dependency := h.toDependency .query } .query h

def handleQueryNotify (node : Node) (j : Join) (self : Peer) (transactionId : String) :
    Option (Node × Join) := do
  let (h, _) ←
    FindSuccessor.createRequest node.routingTable self.id (some j.target) transactionId
  return start node j .findSuccessor h

def handleFindSuccessorNotify (node : Node) (j : Join) (successor : Peer) (transactionId : String) :
    Node × Join :=
  let rt := node.routingTable.setSuccessor successor
  start { node with routingTable := rt } j .getSuccessorList
    (GetSuccessorList.createRequest rt successor transactionId)

def handleGetSuccessorListNotify (node : Node) (j : Join) (successorList : List Peer) :
    Option (Node × Join) := do
  let rt ← node.routingTable.replaceAfterSuccessor successorList
  return ({ node with routingTable := rt }, { j with state := .done, isDone := true })

/--
A response to the request of the dependency, and the `HandleNotification` that follows it. A
response without peers to a `find_successor` request has no behaviour.
-/
def receive (node : Node) (j : Join) (response : RequestObject) (transactionId : String) :
    Option (Node × Join) :=
  let d := j.dependency
  if d.isOutstanding then
    match d.type with
    | .query =>
      let (h, promise) := Query.handleResponse node.routingTable response
      let node := { node with routingTable := h.routingTable }
      let j := { j with dependency := { d with state := h.state, isDone := h.isDone } }
      match promise with
      | none => some (fail node j)
      | some self => handleQueryNotify node j self transactionId
    | .findSuccessor => do
      let (h, successor) ← FindSuccessor.handleResponse node.routingTable response
      let j := { j with dependency := { d with state := h.state, isDone := h.isDone } }
      return handleFindSuccessorNotify node j successor transactionId
    | .getSuccessorList =>
      let (h, successorList) := GetSuccessorList.handleResponse node.routingTable response
      let j := { j with dependency := { d with state := h.state, isDone := h.isDone } }
      handleGetSuccessorListNotify node j successorList
    | _ => some (node, j)
  else
    some (node, j)

def handleFailed (node : Node) (j : Join) : Node × Join :=
  (node, { j with state := .failed })

def timeOut (node : Node) (j : Join) : Node × Join :=
  if j.isDone then
    (node, j)
  else
    handleFailed node { j with state := .timedOut, isDone := true }

section Receive

variable {node : Node} {j : Join} {r response : RequestObject} {self successor : Peer}
  {transactionId : String}

theorem createRequest_eq (hself : node.routingTable.self = some self) (address port : String) :
    let request : RequestObject :=
      ⟨Message.createRequest "query" [self] transactionId, .peer ⟨"", address, port⟩⟩
    createRequest node address port transactionId
      =
    ({ node with sendQueue := node.sendQueue ++ [request] },
      { target := ⟨"", address, port⟩, dependency := .waiting .query request }) := by
  simp [createRequest, start, Query.createRequest, RoutingTable.tryGetSelf, hself,
    Handled.toDependency, Dependency.waiting]

theorem receive_query (hj : j.dependency = .waiting .query r)
    (hpeers : response.message.peers = [self]) :
    let request : RequestObject :=
      ⟨Message.createRequest "find_successor" [⟨self.id, "", ""⟩] transactionId, .peer j.target⟩
    j.receive node response transactionId
      =
    some ({ node with
        routingTable := node.routingTable.setSelf self
        sendQueue := node.sendQueue ++ [request] },
      { j with dependency := .waiting .findSuccessor request }) := by
  simp [receive, hj, Dependency.waiting, Dependency.isOutstanding, Query.handleResponse, hpeers,
    handleQueryNotify,
    FindSuccessor.createRequest, start, Handled.toDependency]

theorem receive_findSuccessor (hj : j.dependency = .waiting .findSuccessor r)
    (hpeers : response.message.peers = [successor]) :
    let request : RequestObject :=
      ⟨Message.createRequest "get_successor_list" [] transactionId, .peer successor⟩
    j.receive node response transactionId
      =
    some ({ node with
        routingTable := node.routingTable.setSuccessor successor
        sendQueue := node.sendQueue ++ [request] },
      { j with dependency := .waiting .getSuccessorList request }) := by
  simp [receive, hj, Dependency.waiting, Dependency.isOutstanding,
    FindSuccessor.handleResponse, hpeers,
    handleFindSuccessorNotify, GetSuccessorList.createRequest, start, Handled.toDependency]

theorem receive_getSuccessorList (hj : j.dependency = .waiting .getSuccessorList r)
    (hlist : node.routingTable.successorList = [successor]) :
    j.receive node response transactionId
      =
    some ({ node with
        routingTable := node.routingTable.replaceSuccessorList
          (successor :: response.message.peers) },
      { j with dependency := .answered .getSuccessorList r, state := .done, isDone := true }) := by
  -- a node that knew nobody but its successor takes over the list of the successor
  simp [receive, hj, Dependency.waiting, Dependency.isOutstanding, Dependency.answered,
    GetSuccessorList.handleResponse,
    handleGetSuccessorListNotify, RoutingTable.replaceAfterSuccessor, hlist,
    RoutingTable.replaceSuccessorList]

end Receive

section Table

variable {node node' : Node} {j j' : Join} {response : RequestObject} {transactionId : String}

@[simp]
theorem createRequest_routingTable (address port : String) :
    (createRequest node address port transactionId).1.routingTable = node.routingTable := rfl

@[simp]
theorem timeOut_routingTable : (j.timeOut node).1.routingTable = node.routingTable := by
  unfold timeOut
  split
  . rfl
  . rfl

theorem query_handleResponse_grows (rt : RoutingTable Peer) (response : RequestObject) :
    rt.Grows (Query.handleResponse rt response).1.routingTable := by
  unfold Query.handleResponse
  split
  . exact .setSelf _ _
  . exact .refl _

theorem receive_grows (h : j.receive node response transactionId = some (node', j')) :
    node.routingTable.Grows node'.routingTable := by
  simp only [receive] at h
  split at h
  . split at h
    . have hquery := query_handleResponse_grows node.routingTable response
      split at h
      . cases h
        exact hquery
      . simp only [handleQueryNotify, FindSuccessor.createRequest, Option.bind_eq_bind,
          Option.bind_some, Option.pure_def, Option.some.injEq] at h
        cases h
        exact hquery
    . simp only [Option.bind_eq_bind, Option.bind_eq_some_iff, Option.pure_def,
        Option.some.injEq] at h
      rcases h with ⟨⟨_, successor⟩, hfind, h⟩
      cases h
      exact .setSuccessor _ _
    . simp only [handleGetSuccessorListNotify, GetSuccessorList.handleResponse,
        Option.bind_eq_bind, Option.bind_eq_some_iff, Option.pure_def, Option.some.injEq] at h
      rcases h with ⟨rt, hrt, h⟩
      cases h
      exact .replaceAfterSuccessor hrt
    . cases h
      exact .refl _
  . cases h
    exact .refl _

end Table

end Join

end Peerpaste
