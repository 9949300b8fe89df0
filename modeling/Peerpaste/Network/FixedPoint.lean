import Peerpaste.Network.Join
import Peerpaste.Run.Basic

/-!
This module contains the ring that nothing is left to do in: rounds of `Stabilize` and
`CheckPredecessor`, by any nodes in any order, leave every table as it is.
-/

namespace Peerpaste

namespace Network

def checkPredecessor : Requester CheckPredecessor where
  outstanding c := if c.isDone then none else c.handler
  receive node c response _ := some (c.receive node response)
  timeOut node c := c.timeOut node

def checkPredecessorRound (net : Network) (sha256 : String → String) (out : Nat → Outside)
    (e : Endpoint) : Option Network :=
  let (node, c) := CheckPredecessor.createRequest { routingTable := net.table e }
    (out 1).transactionId
  complete checkPredecessor sha256 out e 1 (net.setTable e node.routingTable) node c

inductive Round where
  | stabilize (e : Endpoint) (out : Nat → Outside)
  | checkPredecessor (e : Endpoint) (out : Nat → Outside)

def Round.endpoint : Round → Endpoint
  | .stabilize e _ => e
  | .checkPredecessor e _ => e

def round (sha256 : String → String) (net : Network) : Round → Option Network
  | .stabilize e out => net.stabilizeRound sha256 out e
  | .checkPredecessor e out => net.checkPredecessorRound sha256 out e

section Walk

variable {α : Type u} {R : α → α → Prop} {P : α → Prop}

theorem prefix_of_isChain (hunique : ∀ x y z, P y → P z → R x y → R x z → y = z) {a : α}
    {l l' : List α} (h : (a :: l).IsChain R) (h' : (a :: l').IsChain R) (hl : ∀ x ∈ l, P x)
    (hl' : ∀ x ∈ l', P x) (hle : l.length ≤ l'.length) : l <+: l' := by
  induction l generalizing a l' with
  | nil => exact List.nil_prefix
  | cons x l ih =>
    cases l' with
    | nil => simp at hle
    | cons y l' =>
      rw [List.isChain_cons_cons] at h h'
      have hxy := hunique a x y (hl x List.mem_cons_self) (hl' y List.mem_cons_self) h.1 h'.1
      subst hxy
      rw [List.prefix_cons_inj]
      apply ih h.2 h'.2
      . exact fun z hz => hl z (List.mem_cons_of_mem x hz)
      . exact fun z hz => hl' z (List.mem_cons_of_mem x hz)
      . simpa using hle

end Walk

section Settled

variable {net : Network} {e : Endpoint} {sha256 : String → String} {out : Nat → Outside}
  {self successor : Peer}

namespace Settled

theorem successorList_eq (h : net.Settled) (he : e ∈ net.endpoints)
    (hsucc : (net.table e).tryGetSuccessor = some successor) :
    RoutingTable.resize (successor :: (net.table successor.endpoint).successorList)
      =
    (net.table e).successorList := by
  rcases h.exists_neighbours he with ⟨p, s, hn⟩
  have hs : s = successor := by
    have := hn.successor_eq
    rw [hsucc] at this
    exact (Option.some.inj this).symm
  subst hs
  have hmem := h.isMember s.endpoint hn.isMember_successor.1
  have hchain := h.isChain s.endpoint hn.isMember_successor.1
  have hsize := h.size_eq s.endpoint hn.isMember_successor.1
  have hsize' := h.size_eq e he
  simp only [RoutingTable.size, RoutingTable.getPeers] at hsize hsize' hmem hchain
  rw [hn.isMember_successor.selfAt_eq] at hchain
  -- both lists are the walk that starts at the node, and one of them goes one step further
  have hprefix : (net.table e).successorList <+: s :: (net.table s.endpoint).successorList := by
    have hunique (x y z : Peer) (hy : net.IsMember y) (hz : net.IsMember z)
        (hxy : Clockwise.IsNext net.ids x.id y.id) (hxz : Clockwise.IsNext net.ids x.id z.id) :
        y = z :=
      h.eq_of_mem_of_id_eq hy hz (hxy.unique hxz)
    apply prefix_of_isChain hunique (a := net.selfAt e)
    . exact h.isChain e he
    . rw [List.isChain_cons_cons]
      exact ⟨hn.isNext_successor, hchain⟩
    . exact h.isMember e he
    . intro x hx
      rcases List.mem_cons.mp hx with rfl | hx
      . exact hn.isMember_successor
      . exact hmem x hx
    . rw [List.length_cons, hsize, hsize']
      omega
  rw [RoutingTable.resize_eq_take]
  . rw [← hsize']
    exact (List.prefix_iff_eq_take.mp hprefix).symm
  . rw [List.length_cons, hsize]
    omega

theorem replaceSuccessorList_eq (h : net.Settled) (he : e ∈ net.endpoints)
    (hsucc : (net.table e).tryGetSuccessor = some successor) :
    (net.table e).replaceSuccessorList (successor :: (net.table successor.endpoint).successorList)
      =
    net.table e := by
  rw [RoutingTable.replaceSuccessorList, h.successorList_eq he hsucc]

end Settled

theorem stabilizeRound_of_id_eq {predecessor : Peer} (hself : (net.table e).self = some self)
    (hid : self.id = "") (hsucc : (net.table e).tryGetSuccessor = some successor)
    (hs : successor.endpoint ∈ net.endpoints)
    (hpred : (net.table successor.endpoint).predecessor = some predecessor)
    (hlist : (net.table successor.endpoint).successorList ≠ [])
    (hbetween : ¬ Clockwise.Between self.id predecessor.id successor.id) :
    net.stabilizeRound sha256 out e
      =
    some (net.setTable e ((net.table e).replaceSuccessorList
      (successor :: (net.table successor.endpoint).successorList))) := by
  simp only [stabilizeRound]
  rw [Stabilize.createRequest_eq hsucc]
  simp only [setTable_eq_self]
  rw [complete_of_response (stabilize_outstanding rfl) (exchange_getPredAndSuccList hs hpred)]
  rotate_left
  . rw [stabilize_receive, Stabilize.receive_getPredAndSuccList rfl (reply_isRequest _ _),
      reply_peers, Stabilize.handleGetPredAndSuccListNotify_silent hself hid hsucc hlist hbetween]
  . -- nothing is sent any more, so that the object times out with two dependencies
    simp [complete, stabilize, Stabilize.timeOut, Stabilize.handleFailed]

theorem exchange_checkPredecessor {target : Peer} {id : String} {out : Outside}
    (ht : target.endpoint ∈ net.endpoints) :
    let message := Message.createRequest "check_predecessor" [] id
    net.exchange sha256 out target message = some (net, some (reply out message [])) := by
  simp [exchange, ht, MessageFactory.handleRequest, CheckPredecessor.handleRequest, reply]

theorem checkPredecessorRound_eq {predecessor : Peer}
    (hpred : (net.table e).tryGetPredecessor = some predecessor)
    (hp : predecessor.endpoint ∈ net.endpoints) :
    net.checkPredecessorRound sha256 out e = some net := by
  simp only [checkPredecessorRound, CheckPredecessor.createRequest, hpred, setTable_eq_self]
  rw [complete_of_response rfl (exchange_checkPredecessor hp)]
  rotate_left
  . rfl
  . simp [complete]

namespace Settled

theorem stabilizeRound_eq (h : net.Settled) (sha256 : String → String) (out : Nat → Outside)
    (he : e ∈ net.endpoints) : net.stabilizeRound sha256 out e = some net := by
  rcases h.exists_neighbours he with ⟨_, s, hn⟩
  have hself := h.self_eq e he
  have hs := hn.isMember_successor.1
  rcases h.predecessor s.endpoint hs with ⟨p, hpred, hp, hpnext⟩
  rw [hn.isMember_successor.selfAt_eq] at hpnext
  -- the node is what its successor has as predecessor
  have hpe : p = net.selfAt e := by
    have hmem := h.isMember_selfAt he
    apply h.eq_of_mem_of_id_eq hp hmem
    exact hpnext.unique_left hn.isNext_successor hp.id_mem_ids hmem.id_mem_ids
  subst hpe
  have hbetween : ¬ Clockwise.Between (net.selfAt e).id (net.selfAt e).id s.id := by
    intro hbetween
    exact hbetween.ne_left rfl
  have hlist : (net.table s.endpoint).successorList ≠ [] := by
    intro hnil
    have := h.size_eq s.endpoint hs
    simp [RoutingTable.size, hnil, RoutingTable.succListSize] at this
  by_cases hid : (net.selfAt e).id = ""
  . rw [stabilizeRound_of_id_eq hself hid hn.successor_eq hs hpred hlist hbetween,
      h.replaceSuccessorList_eq he hn.successor_eq, setTable_eq_self]
  . rw [stabilizeRound_of_not_between hself hid hn.successor_eq hs hpred hlist hbetween,
      h.replaceSuccessorList_eq he hn.successor_eq, setTable_eq_self]
    have hnotified : notified (net.table s.endpoint) (net.selfAt e) = net.table s.endpoint := by
      have hpred : (net.table s.endpoint).predecessor = some (net.selfAt e) := hpred
      have hbetween' (id : String) :
        ¬ Clockwise.Between (net.selfAt e).id (net.selfAt e).id id := by
        intro hbetween
        exact hbetween.ne_left rfl
      simp [notified, hpred, hbetween']
    rw [hnotified, setTable_eq_self]

theorem round_eq (h : net.Settled) (sha256 : String → String) {r : Round}
    (hr : r.endpoint ∈ net.endpoints) : round sha256 net r = some net := by
  cases r with
  | stabilize e out => exact h.stabilizeRound_eq sha256 out hr
  | checkPredecessor e out =>
    rcases h.predecessor e hr with ⟨p, hpred, hp, _⟩
    exact checkPredecessorRound_eq hpred hp.1

end Settled

/--
Rounds of any nodes in any order leave the whole network as it is.
-/
theorem exec_round_eq {net : Network} (hnet : net.Settled) (sha256 : String → String)
    (rounds : List Round) (hrounds : ∀ r ∈ rounds, r.endpoint ∈ net.endpoints) :
    Run.exec (round sha256) net rounds = some net := by
  induction rounds with
  | nil => rfl
  | cons r rounds ih =>
    rw [Run.exec_cons, hnet.round_eq sha256 (hrounds r List.mem_cons_self), Option.bind_some]
    apply ih
    intro r hr
    exact hrounds r (List.mem_cons_of_mem _ hr)

def nodeA : Peer :=
  ⟨"8090D98B7E355263B254979E9BF4EACF559034B531241B4FD2F45C2F753CF9D4", "10.0.0.1", "6100"⟩

def nodeB : Peer :=
  ⟨"92246B7D628750FC239462603F6DFE2346CCE5D0213596539721B34D8CA0EFAF", "10.0.0.3", "6100"⟩

def nodeC : Peer :=
  ⟨"D759B665755972EBEB281C71F001361667FF5E1F4FB9BC4E1415D8881554D4C6", "10.0.0.2", "6100"⟩

def threeNodes : Network where
  endpoints := {nodeA.endpoint, nodeB.endpoint, nodeC.endpoint}
  table e :=
    if e = nodeA.endpoint then
      ⟨nodeA, nodeC, [nodeB, nodeC, nodeA, nodeB, nodeC, nodeA, nodeB, nodeC, nodeA, nodeB]⟩
    else if e = nodeB.endpoint then
      ⟨nodeB, nodeA, [nodeC, nodeA, nodeB, nodeC, nodeA, nodeB, nodeC, nodeA, nodeB, nodeC]⟩
    else
      ⟨nodeC, nodeB, [nodeA, nodeB, nodeC, nodeA, nodeB, nodeC, nodeA, nodeB, nodeC, nodeA]⟩

theorem threeNodes_isNext :
    Clockwise.IsNext threeNodes.ids nodeA.id nodeB.id
      ∧ Clockwise.IsNext threeNodes.ids nodeB.id nodeC.id
      ∧ Clockwise.IsNext threeNodes.ids nodeC.id nodeA.id := by
  have hids : threeNodes.ids = {nodeA.id, nodeB.id, nodeC.id} := rfl
  rw [hids]
  exact Clockwise.IsNext.of_lt_of_lt (by decide) (by decide)

theorem isChain_around {R : Peer → Peer → Prop} {a b c : Peer} (hab : R a b) (hbc : R b c)
    (hca : R c a) :
    [a, b, c, a, b, c, a, b, c, a, b].IsChain R := by
  simp [hab, hbc, hca]

theorem threeNodes_settled : threeNodes.Settled := by
  have hnext := threeNodes_isNext
  constructor
  case toWellFormed => decide
  case predecessor =>
    intro e he
    simp only [threeNodes, Finset.mem_insert, Finset.mem_singleton] at he
    rcases he with rfl | rfl | rfl
    . exact ⟨nodeC, rfl, by decide, hnext.2.2⟩
    . exact ⟨nodeA, rfl, by decide, hnext.1⟩
    . exact ⟨nodeB, rfl, by decide, hnext.2.1⟩
  case size_eq => decide
  case isMember => decide
  case isChain =>
    intro e he
    simp only [threeNodes, Finset.mem_insert, Finset.mem_singleton] at he
    rcases he with rfl | rfl | rfl
    . exact isChain_around hnext.1 hnext.2.1 hnext.2.2
    . exact isChain_around hnext.2.1 hnext.2.2 hnext.1
    . exact isChain_around hnext.2.2 hnext.1 hnext.2.1

theorem exec_round_threeNodes :
    let out : Nat → Outside := fun _ =>
      ⟨"t1", "t2", ⟨0, "10.0.0.1"⟩, fun _ => ⟨⟨0, "10.0.0.1"⟩, "t3", "t4"⟩⟩
    Run.exec (round (fun _ => nodeA.id)) threeNodes
      [.stabilize nodeA.endpoint out, .checkPredecessor nodeB.endpoint out,
        .stabilize nodeC.endpoint out, .stabilize nodeA.endpoint out] = some threeNodes := by
  intro out
  apply exec_round_eq threeNodes_settled
  simp [Round.endpoint, threeNodes]

end Settled

end Network

end Peerpaste
