import Peerpaste.Messages.Exchange
import Peerpaste.Order.Last

/-!
This module contains what a sequence of notify requests makes of the predecessor: of all the peers
that it could be, the one closest to the node.
-/

namespace Peerpaste

namespace Notification

def notifier (request : RequestObject) : Option Peer :=
  match request.message.peers with
  | [notifyPeer] => some notifyPeer
  | _ => none

def handleRequests (rt : RoutingTable Peer) (requests : List (RequestObject × String)) :
    RoutingTable Peer :=
  requests.foldl (fun rt r => (handleRequest rt r.1 r.2).routingTable) rt

def candidates (rt : RoutingTable Peer) (requests : List (RequestObject × String)) : List Peer :=
  rt.predecessor.toList ++ requests.filterMap (fun r => notifier r.1)

def selfId (rt : RoutingTable Peer) : String :=
  (rt.tryGetSelf.getD default).id

/--
The predecessor is the one whose id the walk from the node's own id meets last, which is the one
with the smallest distance to the node. There is none only if there is no candidate.
-/
def HasClosest (rt : RoutingTable Peer) (points : Set String) : Prop :=
  match rt.predecessor with
  | none => points = ∅
  | some predecessor => Clockwise.IsLast (selfId rt) points predecessor.id

section

variable {rt : RoutingTable Peer} {request : RequestObject} {transactionId : String} {p : Peer}
  {points : Set String}

theorem handleRequest_selfId :
    selfId (handleRequest rt request transactionId).routingTable = selfId rt := by
  unfold handleRequest
  split
  . split
    . rfl
    . simp only
      split
      . rfl
      . rfl
  . rfl

theorem handleRequest_of_notifier_eq_none (rt : RoutingTable Peer) (transactionId : String)
    (h : notifier request = none) :
    (handleRequest rt request transactionId).routingTable = rt := by
  unfold handleRequest
  unfold notifier at h
  split
  . next heq => simp [heq] at h
  . rfl

theorem handleRequest_predecessor (rt : RoutingTable Peer) (transactionId : String)
    (h : notifier request = some p) :
    (handleRequest rt request transactionId).routingTable.predecessor =
      match rt.predecessor with
      | none => some p
      | some predecessor =>
        if Clockwise.Between predecessor.id p.id (selfId rt) then some p else some predecessor := by
  have hpeers : request.message.peers = [p] := by
    unfold notifier at h
    split at h
    . next heq =>
      cases h
      exact heq
    . cases h
  cases hpred : rt.predecessor with
  | none =>
    simp [handleRequest, hpeers, RoutingTable.tryGetPredecessor, hpred, RoutingTable.setPredecessor]
  | some predecessor =>
    simp only [handleRequest, hpeers, RoutingTable.tryGetPredecessor, hpred, util.between_iff]
    by_cases hbetween : Clockwise.Between predecessor.id p.id (selfId rt)
    . rw [if_pos hbetween]
      unfold selfId at hbetween
      rw [if_pos hbetween]
      rfl
    . rw [if_neg hbetween]
      unfold selfId at hbetween
      rw [if_neg hbetween]
      exact hpred

theorem HasClosest.handleRequest (hrt : HasClosest rt points) (transactionId : String)
    (h : notifier request = some p) :
    HasClosest (handleRequest rt request transactionId).routingTable (insert p.id points) := by
  have hpred := handleRequest_predecessor rt transactionId h
  unfold HasClosest at *
  rw [hpred, handleRequest_selfId]
  cases hold : rt.predecessor with
  | none =>
    simp only [hold] at hrt ⊢
    rw [hrt]
    simpa using Clockwise.IsLast.singleton (selfId rt) p.id
  | some predecessor =>
    simp only [hold] at hrt ⊢
    have hinsert := hrt.insert p.id
    by_cases hbetween : Clockwise.Between predecessor.id p.id (selfId rt)
    . rw [if_pos hbetween] at hinsert ⊢
      exact hinsert
    . rw [if_neg hbetween] at hinsert ⊢
      exact hinsert

theorem HasClosest.handleRequests (hrt : HasClosest rt points)
    (requests : List (RequestObject × String)) :
    HasClosest (handleRequests rt requests)
      (points ∪ {id | id ∈ (requests.filterMap fun r => notifier r.1).map Peer.id}) := by
  induction requests generalizing rt points with
  | nil => simpa [Notification.handleRequests] using hrt
  | cons r requests ih =>
    cases hnotifier : notifier r.1 with
    | none =>
      have htable := handleRequest_of_notifier_eq_none rt r.2 hnotifier
      simp only [List.filterMap_cons, hnotifier]
      unfold Notification.handleRequests
      rw [List.foldl_cons, htable]
      exact ih hrt
    | some p =>
      have h := ih (hrt.handleRequest r.2 hnotifier)
      have hpoints (ids : List String) :
          insert p.id points ∪ {id | id ∈ ids} = points ∪ {id | id ∈ p.id :: ids} := by
        ext id
        simp only [List.mem_cons, Set.mem_union, Set.mem_ofPred_eq, Set.mem_insert_iff]
        rw [or_assoc, or_left_comm]
      rw [hpoints] at h
      simp only [List.filterMap_cons, hnotifier]
      exact h

theorem handleRequests_selfId (requests : List (RequestObject × String)) :
    selfId (handleRequests rt requests) = selfId rt := by
  induction requests generalizing rt with
  | nil => rfl
  | cons r requests ih => exact ih.trans handleRequest_selfId

end

theorem handleRequests_hasClosest (rt : RoutingTable Peer)
    (requests : List (RequestObject × String)) :
    HasClosest (handleRequests rt requests) {id | id ∈ (candidates rt requests).map Peer.id} := by
  have hinit : HasClosest rt {id | id ∈ rt.predecessor.toList.map Peer.id} := by
    unfold HasClosest
    cases rt.predecessor with
    | none => simp
    | some predecessor => simpa using Clockwise.IsLast.singleton (selfId rt) predecessor.id
  have hpoints : {id | id ∈ (candidates rt requests).map Peer.id} =
      {id | id ∈ rt.predecessor.toList.map Peer.id}
        ∪ {id | id ∈ (requests.filterMap fun r => notifier r.1).map Peer.id} := by
    ext id
    rw [candidates, List.map_append, Set.mem_ofPred_eq, List.mem_append]
    rfl
  rw [hpoints]
  exact hinit.handleRequests requests

/--
After any sequence of notify requests the predecessor is the closest candidate, so that no other
sequence with the same candidates leaves another id.
-/
theorem handleRequests_predecessor (rt : RoutingTable Peer)
    (requests : List (RequestObject × String)) :
    HasClosest (handleRequests rt requests) {id | id ∈ (candidates rt requests).map Peer.id}
    ∧ ∀ requests',
      (∀ id, id ∈ (candidates rt requests).map Peer.id
        ↔ id ∈ (candidates rt requests').map Peer.id) →
      (handleRequests rt requests).predecessor.map Peer.id
        = (handleRequests rt requests').predecessor.map Peer.id := by
  refine ⟨handleRequests_hasClosest rt requests, ?_⟩
  intro requests' hsame
  have hset : {id | id ∈ (candidates rt requests).map Peer.id}
      = {id | id ∈ (candidates rt requests').map Peer.id} := Set.ext hsame
  have h := handleRequests_hasClosest rt requests
  have h' := handleRequests_hasClosest rt requests'
  rw [hset] at h
  unfold HasClosest at h h'
  rw [handleRequests_selfId] at h h'
  cases hpred : (handleRequests rt requests).predecessor with
  | none =>
    cases hpred' : (handleRequests rt requests').predecessor with
    | none => rfl
    | some p' =>
      simp only [hpred] at h
      simp only [hpred'] at h'
      exact absurd h'.1 (h ▸ Set.notMem_empty p'.id)
  | some p =>
    cases hpred' : (handleRequests rt requests').predecessor with
    | none =>
      simp only [hpred] at h
      simp only [hpred'] at h'
      exact absurd h.1 (h' ▸ Set.notMem_empty p.id)
    | some p' =>
      simp only [hpred] at h
      simp only [hpred'] at h'
      exact congrArg some (h.unique h')

end Notification

end Peerpaste
