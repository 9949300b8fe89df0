import Peerpaste.Messages.Exchange
import Peerpaste.Messages.FindSuccessor

/-!
This module contains what a node does with an incoming request: `MessageFactory` makes the object
that handles it.
-/

namespace Peerpaste

namespace MessageFactory

/--
`create_from_request` and the `handle_request` of the object that it makes, for the types that work
on the routing table. The two types that work on the storage leave it alone, and no object is made
for unknown types.
-/
def handleRequest (sha256 : String → String) (rt : RoutingTable Peer) (request : RequestObject)
    (transactionId : String) : Option Handled :=
  let type := request.message.header.requestType
  if type = "notify" then
    some (Notification.handleRequest rt request transactionId)
  else if type = "check_predecessor" then
    some (CheckPredecessor.handleRequest rt request transactionId)
  else if type = "query" then
    Query.handleRequest sha256 rt request transactionId
  else if type = "find_successor" then
    FindSuccessor.handleRequest rt request transactionId
  else if type = "get_successor_list" then
    some (GetSuccessorList.handleRequest rt request transactionId)
  else if type = "get_predecessor_and_succ_list" then
    some (GetPredAndSuccList.handleRequest rt request transactionId)
  else if type = "get_self_and_successor_list" then
    some (GetSelfAndSuccList.handleRequest rt request transactionId)
  else
    some ⟨rt, .valid, false, []⟩

section Table

variable {sha256 : String → String} {rt : RoutingTable Peer} {request : RequestObject}
  {transactionId : String} {h : Handled}

theorem notification_routingTable :
    (Notification.handleRequest rt request transactionId).routingTable = rt
      ∨
    ∃ predecessor, (Notification.handleRequest rt request transactionId).routingTable
      = rt.setPredecessor predecessor := by
  unfold Notification.handleRequest
  split
  . next notifyPeer _ =>
    split
    . exact Or.inr ⟨notifyPeer, rfl⟩
    . next predecessor _ =>
      simp only
      split
      . exact Or.inr ⟨notifyPeer, rfl⟩
      . exact Or.inl rfl
  . exact Or.inl rfl

theorem query_routingTable {h' : Handled}
    (h : Query.handleRequest sha256 rt request transactionId = some h') :
    h'.routingTable = rt := by
  unfold Query.handleRequest at h
  split at h
  . cases h
  . simp only [Option.some.injEq] at h
    rw [← h]

theorem findSuccessor_routingTable {h' : Handled}
    (h : FindSuccessor.handleRequest rt request transactionId = some h') :
    h'.routingTable = rt := by
  unfold FindSuccessor.handleRequest FindSuccessor.forwardRequest at h
  split at h
  . cases h
  . split at h
    . split at h
      . cases h
      . split at h
        . cases h
        . simp only [Option.some.injEq] at h
          rw [← h]
    . simp only [Option.some.injEq] at h
      rw [← h]

theorem getPredAndSuccList_routingTable :
    (GetPredAndSuccList.handleRequest rt request transactionId).routingTable = rt := by
  unfold GetPredAndSuccList.handleRequest
  split
  . rfl
  . rfl

theorem handleRequest_routingTable
    (hrequest : handleRequest sha256 rt request transactionId = some h) :
    h.routingTable = rt ∨ ∃ predecessor, h.routingTable = rt.setPredecessor predecessor := by
  simp only [handleRequest] at hrequest
  split at hrequest
  . cases hrequest
    exact notification_routingTable
  left
  split at hrequest
  . cases hrequest
    rfl
  split at hrequest
  . exact query_routingTable hrequest
  split at hrequest
  . exact findSuccessor_routingTable hrequest
  split at hrequest
  . cases hrequest
    rfl
  split at hrequest
  . cases hrequest
    exact getPredAndSuccList_routingTable
  split at hrequest
  . cases hrequest
    rfl
  . cases hrequest
    rfl

end Table

end MessageFactory

end Peerpaste
