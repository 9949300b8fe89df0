import Peerpaste.Network.FixedPoint
import Peerpaste.Run.Progress

/-!
This module contains networks in which some nodes may still know wrong neighbours, and what a single
round does in them: also if nobody listens at the peer that is asked, or if that peer has no
predecessor.
-/

namespace Peerpaste

namespace Network

structure LinkedBut (net : Network) (P S : Set Endpoint) : Prop extends net.WellFormed where
  id_ne : ∀ e ∈ net.endpoints, (net.selfAt e).id ≠ ""
  successorList_ne_nil : ∀ e ∈ net.endpoints, (net.table e).successorList ≠ []
  predecessor : ∀ e ∈ net.endpoints, e ∉ P → ∃ p, (net.table e).predecessor = some p
    ∧ net.IsMember p ∧ Clockwise.IsNext net.ids p.id (net.selfAt e).id
  successor : ∀ e ∈ net.endpoints, e ∉ S → ∃ s, (net.table e).tryGetSuccessor = some s
    ∧ net.IsMember s ∧ Clockwise.IsNext net.ids (net.selfAt e).id s.id

/--
Every node knows its neighbours, whatever else is in its successor list.
-/
def Linked (net : Network) : Prop :=
  net.LinkedBut ∅ ∅

structure SameNodes (net net' : Network) : Prop where
  endpoints_eq : net'.endpoints = net.endpoints
  self_eq : ∀ e ∈ net.endpoints, (net'.table e).self = (net.table e).self

namespace SameNodes

variable {net net' net'' : Network} {e : Endpoint} {rt : RoutingTable Peer}

theorem refl (net : Network) : net.SameNodes net :=
  ⟨rfl, fun _ _ => rfl⟩

theorem symm (h : net.SameNodes net') : net'.SameNodes net :=
  ⟨h.endpoints_eq.symm, fun e he => (h.self_eq e (h.endpoints_eq ▸ he)).symm⟩

theorem trans (h : net.SameNodes net') (h' : net'.SameNodes net'') : net.SameNodes net'' := by
  refine ⟨h'.endpoints_eq.trans h.endpoints_eq, ?_⟩
  intro e he
  rw [h'.self_eq e (h.endpoints_eq ▸ he), h.self_eq e he]

theorem setTable (hself : rt.self = (net.table e).self) : net.SameNodes (net.setTable e rt) := by
  refine ⟨rfl, ?_⟩
  intro e' _
  by_cases heq : e' = e
  . rw [heq, setTable_table_self, hself]
  . rw [setTable_table_of_ne heq]

theorem replaceSuccessorList (net : Network) (e : Endpoint) (list : List Peer) :
    net.SameNodes (net.setTable e ((net.table e).replaceSuccessorList list)) :=
  .setTable rfl

theorem selfAt_eq (h : net.SameNodes net') (he : e ∈ net.endpoints) :
    net'.selfAt e = net.selfAt e := by
  unfold selfAt
  rw [h.self_eq e he]

theorem isMember_iff (h : net.SameNodes net') {p : Peer} : net'.IsMember p ↔ net.IsMember p := by
  unfold IsMember
  rw [h.endpoints_eq]
  apply and_congr_right
  intro hp
  rw [h.self_eq _ hp]

theorem ids_eq (h : net.SameNodes net') : net'.ids = net.ids := by
  unfold ids
  rw [h.endpoints_eq]
  apply Finset.image_congr
  intro e he
  exact congrArg Peer.id (h.selfAt_eq he)

theorem wellFormed (h : net.SameNodes net') (hnet : net.WellFormed) : net'.WellFormed := by
  have hmem {e : Endpoint} (he : e ∈ net'.endpoints) : e ∈ net.endpoints := h.endpoints_eq ▸ he
  constructor
  case self_eq =>
    intro e he
    rw [h.self_eq e (hmem he), h.selfAt_eq (hmem he)]
    exact hnet.self_eq e (hmem he)
  case endpoint_selfAt =>
    intro e he
    rw [h.selfAt_eq (hmem he)]
    exact hnet.endpoint_selfAt e (hmem he)
  case eq_of_id_eq =>
    intro e he e' he' heq
    rw [h.selfAt_eq (hmem he), h.selfAt_eq (hmem he')] at heq
    exact hnet.eq_of_id_eq e (hmem he) e' (hmem he') heq

end SameNodes

theorem IsMember.eq_of_endpoint_eq {net : Network} {p q : Peer} (hp : net.IsMember p)
    (hq : net.IsMember q) (h : p.endpoint = q.endpoint) : p = q := by
  rw [← hp.selfAt_eq, h, hq.selfAt_eq]

theorem WellFormed.eq_of_isNext {net : Network} (hnet : net.WellFormed) {x y z : Peer}
    (hx : net.IsMember x) (hy : net.IsMember y) (hxz : Clockwise.IsNext net.ids x.id z.id)
    (hyz : Clockwise.IsNext net.ids y.id z.id) : x = y :=
  hnet.eq_of_mem_of_id_eq hx hy (hxz.unique_left hyz hx.id_mem_ids hy.id_mem_ids)

structure Consecutive (net : Network) (x y z : Peer) : Prop where
  isMember_left : net.IsMember x
  isMember_middle : net.IsMember y
  isMember_right : net.IsMember z
  isNext_left : Clockwise.IsNext net.ids x.id y.id
  isNext_right : Clockwise.IsNext net.ids y.id z.id

namespace Consecutive

variable {net net' : Network} {x y z : Peer}

theorem congr (h : net.Consecutive x y z) (hsame : net.SameNodes net') :
    net'.Consecutive x y z := by
  constructor
  case isMember_left => exact hsame.isMember_iff.mpr h.isMember_left
  case isMember_middle => exact hsame.isMember_iff.mpr h.isMember_middle
  case isMember_right => exact hsame.isMember_iff.mpr h.isMember_right
  case isNext_left =>
    rw [hsame.ids_eq]
    exact h.isNext_left
  case isNext_right =>
    rw [hsame.ids_eq]
    exact h.isNext_right

theorem not_between (h : net.Consecutive x y z) : ¬ Clockwise.Between y.id x.id z.id :=
  h.isNext_right.2 x.id h.isMember_left.id_mem_ids

theorem between (h : net.Consecutive x y z) (hnet : net.WellFormed)
    (hne : y.endpoint ≠ z.endpoint) :
    Clockwise.Between x.id y.id z.id := by
  apply h.isNext_left.between_right h.isMember_right.id_mem_ids
  intro heq
  have := hnet.eq_of_mem_of_id_eq h.isMember_right h.isMember_middle heq
  exact hne (congrArg Peer.endpoint this.symm)

end Consecutive

section SetTable

variable {net : Network} {e : Endpoint} {rt : RoutingTable Peer} {P S : Set Endpoint}

theorem LinkedBut.setTable (h : net.LinkedBut P S) (hself : rt.self = (net.table e).self)
    (hlist : rt.successorList ≠ []) (hpred : e ∉ P → rt.predecessor = (net.table e).predecessor)
    (hsucc : e ∉ S → rt.tryGetSuccessor = (net.table e).tryGetSuccessor) :
    (net.setTable e rt).LinkedBut P S := by
  have hsame : net.SameNodes (net.setTable e rt) := .setTable hself
  refine ⟨hsame.wellFormed h.toWellFormed, ?_, ?_, ?_, ?_⟩
  . intro e' he'
    rw [hsame.selfAt_eq he']
    exact h.id_ne e' he'
  . intro e' he'
    by_cases heq : e' = e
    . rw [heq, setTable_table_self]
      exact hlist
    . rw [setTable_table_of_ne heq]
      exact h.successorList_ne_nil e' he'
  . intro e' he' hP
    rcases h.predecessor e' he' hP with ⟨p, hp, hmem, hnext⟩
    refine ⟨p, ?_, hsame.isMember_iff.mpr hmem, ?_⟩
    . by_cases heq : e' = e
      . rw [heq] at hP hp ⊢
        rw [setTable_table_self, hpred hP, hp]
      . rw [setTable_table_of_ne heq, hp]
    . rw [hsame.ids_eq, hsame.selfAt_eq he']
      exact hnext
  . intro e' he' hS
    rcases h.successor e' he' hS with ⟨s, hs, hmem, hnext⟩
    refine ⟨s, ?_, hsame.isMember_iff.mpr hmem, ?_⟩
    . by_cases heq : e' = e
      . rw [heq] at hS hs ⊢
        rw [setTable_table_self, hsucc hS, hs]
      . rw [setTable_table_of_ne heq, hs]
    . rw [hsame.ids_eq, hsame.selfAt_eq he']
      exact hnext

end SetTable

namespace LinkedBut

variable {net : Network} {e : Endpoint} {P P' S S' : Set Endpoint} {p s : Peer}

theorem mono (h : net.LinkedBut P S) (hP : P ⊆ P') (hS : S ⊆ S') : net.LinkedBut P' S' where
  toWellFormed := h.toWellFormed
  id_ne := h.id_ne
  successorList_ne_nil := h.successorList_ne_nil
  predecessor e he hne := h.predecessor e he fun hmem => hne (hP hmem)
  successor e he hne := h.successor e he fun hmem => hne (hS hmem)

theorem successor_eq (h : net.LinkedBut P S) (hp : net.IsMember p) (hs : net.IsMember s)
    (hnext : Clockwise.IsNext net.ids p.id s.id) (hS : p.endpoint ∉ S) :
    (net.table p.endpoint).tryGetSuccessor = some s := by
  rcases h.successor p.endpoint hp.1 hS with ⟨t, ht, hmem, htnext⟩
  rw [hp.selfAt_eq] at htnext
  rw [ht, h.eq_of_mem_of_id_eq hmem hs (htnext.unique hnext)]

theorem predecessor_eq (h : net.LinkedBut P S) (hp : net.IsMember p) (hs : net.IsMember s)
    (hnext : Clockwise.IsNext net.ids p.id s.id) (hP : s.endpoint ∉ P) :
    (net.table s.endpoint).predecessor = some p := by
  rcases h.predecessor s.endpoint hs.1 hP with ⟨q, hq, hmem, hqnext⟩
  rw [hs.selfAt_eq] at hqnext
  rw [hq, h.eq_of_isNext hmem hp hqnext hnext]

theorem link (h : net.LinkedBut (insert s.endpoint P) (insert p.endpoint S)) (hp : net.IsMember p)
    (hs : net.IsMember s) (hnext : Clockwise.IsNext net.ids p.id s.id)
    (hpred : (net.table s.endpoint).predecessor = some p)
    (hsucc : (net.table p.endpoint).tryGetSuccessor = some s) : net.LinkedBut P S where
  toWellFormed := h.toWellFormed
  id_ne := h.id_ne
  successorList_ne_nil := h.successorList_ne_nil
  predecessor e he hP := by
    by_cases heq : e = s.endpoint
    . rw [heq, hs.selfAt_eq]
      exact ⟨p, hpred, hp, hnext⟩
    . exact h.predecessor e he fun hmem => (Set.mem_insert_iff.mp hmem).elim heq hP
  successor e he hS := by
    by_cases heq : e = p.endpoint
    . rw [heq, hp.selfAt_eq]
      exact ⟨s, hsucc, hs, hnext⟩
    . exact h.successor e he fun hmem => (Set.mem_insert_iff.mp hmem).elim heq hS

end LinkedBut

section Rounds

variable {net : Network} {e : Endpoint} {sha256 : String → String} {out : Nat → Outside}
  {self successor predecessor : Peer}

theorem exchange_of_not_mem {target : Peer} (ht : target.endpoint ∉ net.endpoints) (out : Outside)
    (message : Message) : net.exchange sha256 out target message = some (net, none) := by
  simp [exchange, ht]

theorem complete_of_not_mem {requester : Requester O} {fuel : Nat} {node : Node} {o : O}
    {message : Message} {target : Peer}
    (hout : requester.outstanding o = some ⟨message, .peer target⟩)
    (ht : target.endpoint ∉ net.endpoints) :
    complete requester sha256 out e (fuel + 1) net node o
      =
    some (net.setTable e
      (requester.timeOut { node with routingTable := net.table e } o).1.routingTable) := by
  simp [complete, hout, exchange_of_not_mem ht]

theorem stabilizeRound_of_not_mem (hsucc : (net.table e).tryGetSuccessor = some successor)
    (hs : successor.endpoint ∉ net.endpoints) :
    net.stabilizeRound sha256 out e = some (net.setTable e (net.table e).popFront) := by
  simp only [stabilizeRound]
  rw [Stabilize.createRequest_eq hsucc]
  simp only [setTable_eq_self]
  rw [complete_of_not_mem (stabilize_outstanding rfl) hs]
  simp [Stabilize.timeOut, Stabilize.handleFailed]

theorem exchange_getPredAndSuccList_of_none {target : Peer} {id : String} {out : Outside}
    (ht : target.endpoint ∈ net.endpoints)
    (hpred : (net.table target.endpoint).predecessor = none) :
    let message := Message.createRequest "get_predecessor_and_succ_list" [] id
    net.exchange sha256 out target message = some (net, some (reply out message [])) := by
  simp [exchange, ht, MessageFactory.handleRequest, GetPredAndSuccList.handleRequest, reply,
    RoutingTable.tryGetPredecessor, hpred]

theorem stabilizeRound_of_no_predecessor {next : Peer} {rest : List Peer}
    (hself : (net.table e).self = some self) (hid : self.id ≠ "")
    (hlist : (net.table e).successorList = successor :: next :: rest)
    (hs : successor.endpoint ∈ net.endpoints)
    (hpred : (net.table successor.endpoint).predecessor = none)
    (hnext : next.endpoint ∈ net.endpoints) :
    let net' := net.setTable e { net.table e with successorList := next :: rest }
    net.stabilizeRound sha256 out e
      =
    some (net'.setTable next.endpoint (notified (net'.table next.endpoint) self)) := by
  intro net'
  have hsucc : (net.table e).tryGetSuccessor = some successor := by
    simp [RoutingTable.tryGetSuccessor, hlist]
  simp only [stabilizeRound]
  rw [Stabilize.createRequest_eq hsucc]
  simp only [setTable_eq_self]
  rw [complete_of_response (stabilize_outstanding rfl)
    (exchange_getPredAndSuccList_of_none hs hpred)]
  rotate_left
  . rw [stabilize_receive, Stabilize.receive_getPredAndSuccList rfl (reply_isRequest _ _),
      reply_peers, Stabilize.handleGetPredAndSuccListNotify_pop hself hid hlist]
  . apply complete_notification 1 (out 2).transactionId
    . rfl
    . rfl
    . exact hnext

theorem stabilizeRound_of_between_not_mem (hself : (net.table e).self = some self)
    (hsucc : (net.table e).tryGetSuccessor = some successor)
    (hs : successor.endpoint ∈ net.endpoints)
    (hpred : (net.table successor.endpoint).predecessor = some predecessor)
    (hlist : (net.table successor.endpoint).successorList ≠ [])
    (hbetween : Clockwise.Between self.id predecessor.id successor.id)
    (hp : predecessor.endpoint ∉ net.endpoints) :
    net.stabilizeRound sha256 out e
      =
    some (net.setTable e ((net.table e).replaceSuccessorList
      (successor :: (net.table successor.endpoint).successorList))) := by
  simp only [stabilizeRound]
  rw [Stabilize.createRequest_eq hsucc]
  simp only [setTable_eq_self]
  rw [complete_of_response (stabilize_outstanding rfl) (exchange_getPredAndSuccList hs hpred)]
  rotate_left
  . rw [stabilize_receive, Stabilize.receive_getPredAndSuccList rfl (reply_isRequest _ _),
      reply_peers, Stabilize.handleGetPredAndSuccListNotify_adopt hself hsucc hlist hbetween]
  refine (complete_of_not_mem (stabilize_outstanding rfl) ?_).trans ?_
  . exact hp
  . simp [Stabilize.timeOut, Stabilize.handleFailed]

theorem checkPredecessorRound_of_none (hpred : (net.table e).tryGetPredecessor = none) :
    net.checkPredecessorRound sha256 out e = some net := by
  simp [checkPredecessorRound, CheckPredecessor.createRequest, hpred, complete, checkPredecessor,
    CheckPredecessor.timeOut]

theorem checkPredecessorRound_of_not_mem
    (hpred : (net.table e).tryGetPredecessor = some predecessor)
    (hp : predecessor.endpoint ∉ net.endpoints) :
    net.checkPredecessorRound sha256 out e
      = some (net.setTable e (net.table e).resetPredecessor) := by
  simp only [checkPredecessorRound, CheckPredecessor.createRequest, hpred, setTable_eq_self]
  rw [complete_of_not_mem rfl hp]
  rfl

theorem stabilizeRound_of_predecessor (hself : (net.table e).self = some self) (hid : self.id ≠ "")
    (hsucc : (net.table e).tryGetSuccessor = some successor)
    (hs : successor.endpoint ∈ net.endpoints)
    (hpred : (net.table successor.endpoint).predecessor = some self)
    (hlist : (net.table successor.endpoint).successorList ≠ []) :
    net.stabilizeRound sha256 out e
      =
    some (net.setTable e ((net.table e).replaceSuccessorList
      (successor :: (net.table successor.endpoint).successorList))) := by
  have hbetween (id : String) : ¬ Clockwise.Between self.id self.id id := fun h => h.ne_left rfl
  rw [stabilizeRound_of_not_between hself hid hsucc hs hpred hlist (hbetween _)]
  let net' := net.setTable e ((net.table e).replaceSuccessorList
    (successor :: (net.table successor.endpoint).successorList))
  have hpred' : (net'.table successor.endpoint).predecessor = some self := by
    by_cases heq : successor.endpoint = e
    . rw [heq, setTable_table_self]
      exact heq ▸ hpred
    . rw [setTable_table_of_ne heq]
      exact hpred
  have hnotified : notified (net'.table successor.endpoint) self
    = net'.table successor.endpoint := by
    simp [notified, hpred', hbetween]
  exact congrArg some ((congrArg _ hnotified).trans (setTable_eq_self net' _))

namespace LinkedBut

variable {P S : Set Endpoint}

theorem stabilizeRound_quiet (h : net.LinkedBut P S) (sha256 : String → String)
    (out : Nat → Outside) (he : e ∈ net.endpoints) (hS : e ∉ S)
    (hP : ∀ s, (net.table e).tryGetSuccessor = some s → s.endpoint ∉ P) :
    ∃ s, (net.table e).tryGetSuccessor = some s ∧ net.IsMember s
      ∧ Clockwise.IsNext net.ids (net.selfAt e).id s.id
      ∧ net.stabilizeRound sha256 out e = some (net.setTable e ((net.table e).replaceSuccessorList
        (s :: (net.table s.endpoint).successorList)))
      ∧ (net.setTable e ((net.table e).replaceSuccessorList
        (s :: (net.table s.endpoint).successorList))).LinkedBut P S := by
  rcases h.successor e he hS with ⟨s, hs, hmem, hnext⟩
  have hself := h.isMember_selfAt he
  have hpred := h.predecessor_eq hself hmem hnext (hP s hs)
  refine ⟨s, hs, hmem, hnext, ?_, ?_⟩
  . exact stabilizeRound_of_predecessor (h.self_eq e he) (h.id_ne e he) hs hmem.1 hpred
      (h.successorList_ne_nil s.endpoint hmem.1)
  . apply h.setTable
    . rfl
    . exact RoutingTable.resize_ne_nil _
    . exact fun _ => rfl
    . intro _
      rw [hs]
      exact RoutingTable.head?_resize_cons _ _

theorem checkPredecessorRound_quiet (h : net.LinkedBut P S) (sha256 : String → String)
    (out : Nat → Outside) (he : e ∈ net.endpoints) (hP : e ∉ P) :
    net.checkPredecessorRound sha256 out e = some net := by
  rcases h.predecessor e he hP with ⟨p, hp, hmem, _⟩
  exact checkPredecessorRound_eq hp hmem.1

end LinkedBut

end Rounds

end Network

end Peerpaste
