import Peerpaste.Messages.Basic

/-!
This module contains the `FindSuccessor` message: the lookup step of a node, with the request,
response and forwarding handlers around it.
-/

namespace Peerpaste

namespace FindSuccessor

def closestPrecedingNode (rt : RoutingTable Peer) (id : String) : Option Peer :=
  match rt.tryGetSelf with
  | none => none
  | some self =>
    some ((rt.getPeers.reverse.find? fun peer => util.between self.id peer.id id).getD self)

def findSuccessor (rt : RoutingTable Peer) (id : String) : Option Peer :=
  match rt.tryGetSelf with
  | none => none
  | some self =>
    if rt.size = 0 then
      answerSelf self
    else
      match rt.tryGetSuccessor with
      | none => none
      | some successor =>
        if util.between self.id id successor.id || id == successor.id then
          some successor
        else
          answerSelf self
where
  answerSelf (self : Peer) : Option Peer :=
    match closestPrecedingNode rt id with
    | none => none
    | some predecessor =>
      if predecessor.id == self.id then
        some self
      else
        none

/--
`create_request`, with the promise that it sets if the node knows the answer itself.
-/
def createRequest (rt : RoutingTable Peer) (id : String) (target : Option Peer)
    (transactionId : String) : Option (Handled × Option Peer) :=
  let request := Message.createRequest "find_successor" [⟨id, "", ""⟩] transactionId
  match target with
  | some target => some (⟨rt, .valid, false, [⟨request, .peer target⟩]⟩, none)
  | none =>
    match findSuccessor rt id with
    | some successor => some (⟨rt, .done, true, []⟩, some successor)
    | none =>
      match closestPrecedingNode rt id with
      | none => none
      | some target => some (⟨rt, .valid, false, [⟨request, .peer target⟩]⟩, none)

def forwardRequest (rt : RoutingTable Peer) (request : RequestObject) (transactionId : String) :
    Option Handled :=
  match request.message.peers with
  | [] => none
  | peer :: _ =>
    match closestPrecedingNode rt peer.id with
    | none => none
    | some successorPredecessor =>
      let newRequest := Message.createRequest "find_successor" [peer] transactionId
      some ⟨rt, .valid, false, [⟨newRequest, .peer successorPredecessor⟩]⟩

def handleRequest (rt : RoutingTable Peer) (request : RequestObject) (transactionId : String) :
    Option Handled :=
  match request.message.peers with
  | [] => none
  | peer :: _ =>
    match findSuccessor rt peer.id with
    | none => forwardRequest rt request transactionId
    | some successor => some ⟨rt, .done, true, [request.respond [successor] transactionId]⟩

def handleForwardedResponse (rt : RoutingTable Peer) (request response : RequestObject)
    (transactionId : String) : Option Handled :=
  match response.message.peers with
  | [] => none
  | successor :: _ => some ⟨rt, .done, true, [request.respond [successor] transactionId]⟩

/--
`handle_response`, with the promise that it sets. A wrong number of peers is only logged.
-/
def handleResponse (rt : RoutingTable Peer) (response : RequestObject) : Option (Handled × Peer) :=
  match response.message.peers with
  | [] => none
  | successor :: _ => some (⟨rt, .done, true, []⟩, successor)

variable {rt : RoutingTable Peer} {self p s : Peer} {id : String}

theorem closestPrecedingNode_cases (hself : rt.self = some self)
    (h : closestPrecedingNode rt id = some p) :
    (p ∈ rt.getPeers ∧ Clockwise.Between self.id p.id id)
      ∨
    (p = self ∧ ∀ q ∈ rt.getPeers, ¬ Clockwise.Between self.id q.id id) := by
  simp only [closestPrecedingNode, RoutingTable.tryGetSelf, hself, Option.some.injEq] at h
  cases hfind : rt.getPeers.reverse.find? (fun peer => util.between self.id peer.id id) with
  | none =>
    right
    rw [hfind] at h
    refine ⟨h.symm, ?_⟩
    intro q hq
    rw [List.find?_eq_none] at hfind
    rw [← util.between_iff]
    exact hfind q (List.mem_reverse.mpr hq)
  | some q =>
    left
    rw [hfind] at h
    simp only [Option.getD_some] at h
    subst h
    have hbetween := List.find?_some hfind
    refine ⟨List.mem_reverse.mp (List.mem_of_find?_eq_some hfind), ?_⟩
    rw [← util.between_iff]
    exact hbetween

theorem exists_closestPrecedingNode (hself : rt.self = some self) (id : String) :
    ∃ p, closestPrecedingNode rt id = some p := by
  simp [closestPrecedingNode, RoutingTable.tryGetSelf, hself]

theorem findSuccessor_eq (hself : rt.self = some self) (hsucc : rt.tryGetSuccessor = some s)
    (hp : closestPrecedingNode rt id = some p) :
    findSuccessor rt id =
      if Clockwise.Between self.id id s.id ∨ id = s.id then
        some s
      else if p.id = self.id then
        some self
      else
        none := by
  have hsize : rt.size ≠ 0 := by
    intro h
    rw [RoutingTable.size, List.length_eq_zero_iff] at h
    simp [RoutingTable.tryGetSuccessor, h] at hsucc
  simp only [findSuccessor, findSuccessor.answerSelf, RoutingTable.tryGetSelf, hself, hsize,
    ↓reduceIte, hsucc, hp, Bool.or_eq_true, util.between_iff, beq_iff_eq]

end FindSuccessor

end Peerpaste
