import Peerpaste.Network.Exchange

/-!
This module contains what a join does to an ideal ring: after the join itself, a round of the new
node and a round of its predecessor, all neighbours are the right ones again.
-/

namespace Peerpaste

namespace Network

structure Neighbours (net : Network) (e : Endpoint) (p s : Peer) : Prop where
  predecessor_eq : (net.table e).tryGetPredecessor = some p
  successor_eq : (net.table e).tryGetSuccessor = some s
  isMember_predecessor : net.IsMember p
  isMember_successor : net.IsMember s
  isNext_predecessor : Clockwise.IsNext net.ids p.id (net.selfAt e).id
  isNext_successor : Clockwise.IsNext net.ids (net.selfAt e).id s.id

structure Settled (net : Network) : Prop extends net.WellFormed where
  predecessor : ∀ e ∈ net.endpoints, ∃ p, (net.table e).tryGetPredecessor = some p
    ∧ net.IsMember p ∧ Clockwise.IsNext net.ids p.id (net.selfAt e).id
  size_eq : ∀ e ∈ net.endpoints, (net.table e).size = RoutingTable.succListSize
  isMember : ∀ e ∈ net.endpoints, ∀ p ∈ (net.table e).getPeers, net.IsMember p
  isChain : ∀ e ∈ net.endpoints,
    (net.selfAt e :: (net.table e).getPeers).IsChain (fun x y => Clockwise.IsNext net.ids x.id y.id)

/--
Every node knows its neighbours, and its successor list is the walk along the next ten nodes. Ids
are digests, which are never empty.
-/
structure Ideal (net : Network) : Prop extends net.WellFormed where
  id_ne : ∀ e ∈ net.endpoints, (net.selfAt e).id ≠ ""
  predecessor : ∀ e ∈ net.endpoints, ∃ p, (net.table e).tryGetPredecessor = some p
    ∧ net.IsMember p ∧ Clockwise.IsNext net.ids p.id (net.selfAt e).id
  size_eq : ∀ e ∈ net.endpoints, (net.table e).size = RoutingTable.succListSize
  isMember : ∀ e ∈ net.endpoints, ∀ p ∈ (net.table e).getPeers, net.IsMember p
  isChain : ∀ e ∈ net.endpoints,
    (net.selfAt e :: (net.table e).getPeers).IsChain (fun x y => Clockwise.IsNext net.ids x.id y.id)

def addNode (net : Network) (e : Endpoint) (rt : RoutingTable Peer) : Network where
  endpoints := insert e net.endpoints
  table := Function.update net.table e rt

theorem Ideal.settled {net : Network} (h : net.Ideal) : net.Settled :=
  ⟨h.toWellFormed, h.predecessor, h.size_eq, h.isMember, h.isChain⟩

theorem Settled.exists_neighbours {net : Network} {e : Endpoint} (h : net.Settled)
    (he : e ∈ net.endpoints) : ∃ p s, net.Neighbours e p s := by
  rcases h.predecessor e he with ⟨p, hp, hpmem, hpnext⟩
  have hsize := h.size_eq e he
  have hmem := h.isMember e he
  have hchain := h.isChain e he
  simp only [RoutingTable.size, RoutingTable.getPeers] at hsize hmem hchain
  cases hlist : (net.table e).successorList with
  | nil => simp [hlist, RoutingTable.succListSize] at hsize
  | cons s tail =>
    rw [hlist] at hmem hchain
    refine ⟨p, s, hp, ?_, hpmem, hmem s List.mem_cons_self, hpnext, ?_⟩
    . simp [RoutingTable.tryGetSuccessor, hlist]
    . rw [List.isChain_cons] at hchain
      exact hchain.1 s rfl

namespace Ideal

variable {net : Network} {e : Endpoint}

theorem exists_neighbours (h : net.Ideal) (he : e ∈ net.endpoints) :
    ∃ p s, net.Neighbours e p s := by
  exact h.settled.exists_neighbours he

theorem successorList_ne_nil (h : net.Ideal) (he : e ∈ net.endpoints) :
    (net.table e).successorList ≠ [] := by
  intro hnil
  have := h.size_eq e he
  simp [RoutingTable.size, hnil, RoutingTable.succListSize] at this

theorem firstSuccessorsCorrect (h : net.Ideal) : net.FirstSuccessorsCorrect := by
  intro e he
  rcases h.exists_neighbours he with ⟨p, s, hn⟩
  exact ⟨⟨s, hn.successor_eq, hn.isNext_successor⟩, h.isMember e he⟩

end Ideal

structure Integrated (net : Network) (n p s : Peer) (net' : Network) : Prop where
  endpoints_eq : net'.endpoints = insert n.endpoint net.endpoints
  self_new : (net'.table n.endpoint).self = some n
  predecessor_new : (net'.table n.endpoint).tryGetPredecessor = some p
  successor_new : (net'.table n.endpoint).tryGetSuccessor = some s
  self_eq : ∀ e ∈ net.endpoints, (net'.table e).self = (net.table e).self
  predecessor_eq : ∀ e ∈ net.endpoints, (net'.table e).tryGetPredecessor
    = if e = s.endpoint then some n else (net.table e).tryGetPredecessor
  successor_eq : ∀ e ∈ net.endpoints, (net'.table e).tryGetSuccessor
    = if e = p.endpoint then some n else (net.table e).tryGetSuccessor

namespace Integrated

variable {net net' : Network} {n p s q : Peer} {e : Endpoint}

theorem selfAt_eq (h : net.Integrated n p s net') (he : e ∈ net.endpoints) :
    net'.selfAt e = net.selfAt e := by
  unfold selfAt
  rw [h.self_eq e he]

theorem selfAt_new (h : net.Integrated n p s net') : net'.selfAt n.endpoint = n := by
  unfold selfAt
  rw [h.self_new]
  rfl

theorem isMember (h : net.Integrated n p s net') (hq : net.IsMember q) : net'.IsMember q := by
  refine ⟨?_, ?_⟩
  . rw [h.endpoints_eq]
    exact Finset.mem_insert_of_mem hq.1
  . rw [h.self_eq _ hq.1]
    exact hq.2

theorem isMember_new (h : net.Integrated n p s net') : net'.IsMember n := by
  refine ⟨?_, h.self_new⟩
  rw [h.endpoints_eq]
  exact Finset.mem_insert_self _ _

theorem isMember_iff (h : net.Integrated n p s net') :
    net'.IsMember q ↔ q = n ∨ net.IsMember q := by
  constructor
  . rintro ⟨hend, hself⟩
    rw [h.endpoints_eq, Finset.mem_insert] at hend
    rcases hend with heq | hend
    . left
      rw [heq, h.self_new] at hself
      simpa using hself.symm
    . right
      rw [h.self_eq _ hend] at hself
      exact ⟨hend, hself⟩
  . rintro (rfl | hq)
    . exact h.isMember_new
    . exact h.isMember hq

theorem ids_eq (h : net.Integrated n p s net') : net'.ids = insert n.id net.ids := by
  unfold ids
  rw [h.endpoints_eq, Finset.image_insert, h.selfAt_new]
  congr 1
  apply Finset.image_congr
  intro e he
  exact congrArg Peer.id (h.selfAt_eq he)

theorem wellFormed (h : net.Integrated n p s net') (hnet : net.WellFormed) (hn : n.id ∉ net.ids) :
    net'.WellFormed := by
  have hid : ∀ e ∈ net.endpoints, (net.selfAt e).id ≠ n.id := by
    rintro e he heq
    exact hn (heq ▸ (hnet.isMember_selfAt he).id_mem_ids)
  constructor
  case self_eq =>
    intro e he
    rw [h.endpoints_eq] at he
    rcases Finset.mem_insert.mp he with rfl | he
    . rw [h.selfAt_new, h.self_new]
    . rw [h.selfAt_eq he, h.self_eq e he]
      exact hnet.self_eq e he
  case endpoint_selfAt =>
    intro e he
    rw [h.endpoints_eq] at he
    rcases Finset.mem_insert.mp he with rfl | he
    . rw [h.selfAt_new]
    . rw [h.selfAt_eq he]
      exact hnet.endpoint_selfAt e he
  case eq_of_id_eq =>
    intro e he e' he' heq
    rw [h.endpoints_eq] at he he'
    rcases Finset.mem_insert.mp he with rfl | he <;> rcases Finset.mem_insert.mp he' with rfl | he'
    . rfl
    . rw [h.selfAt_new, h.selfAt_eq he'] at heq
      exact absurd heq.symm (hid e' he')
    . rw [h.selfAt_new, h.selfAt_eq he] at heq
      exact absurd heq (hid e he)
    . rw [h.selfAt_eq he, h.selfAt_eq he'] at heq
      exact hnet.eq_of_id_eq e he e' he' heq

theorem exists_neighbours (h : net.Integrated n p s net') (hnet : net.WellFormed)
    (hneighbours : ∀ e ∈ net.endpoints, ∃ p s, net.Neighbours e p s) (hn : n.id ∉ net.ids)
    (hp : net.IsMember p) (hs : net.IsMember s) (hps : Clockwise.IsNext net.ids p.id s.id)
    (hsucc : Clockwise.IsSuccessor net.ids n.id s.id) (he : e ∈ net'.endpoints) :
    ∃ p s, net'.Neighbours e p s := by
  have hleft := hps.insert_left hp.id_mem_ids hn hsucc
  have hright := Clockwise.IsNext.insert_right hn hsucc
  rw [h.endpoints_eq] at he
  rcases Finset.mem_insert.mp he with rfl | he
  . refine ⟨p, s, h.predecessor_new, h.successor_new, h.isMember hp, h.isMember hs, ?_, ?_⟩
    . rw [h.ids_eq, h.selfAt_new]
      exact hleft
    . rw [h.ids_eq, h.selfAt_new]
      exact hright
  rcases hneighbours e he with ⟨q, t, hnode⟩
  have hself := hnet.isMember_selfAt he
  have hpredecessor : ∃ q', (net'.table e).tryGetPredecessor = some q' ∧ net'.IsMember q'
      ∧ Clockwise.IsNext net'.ids q'.id (net'.selfAt e).id := by
    rw [h.predecessor_eq e he, h.selfAt_eq he, h.ids_eq]
    split
    . next heq =>
      rw [heq, hs.selfAt_eq]
      exact ⟨n, rfl, h.isMember_new, hright⟩
    . next hne =>
      refine ⟨q, hnode.predecessor_eq, h.isMember hnode.isMember_predecessor, ?_⟩
      apply hnode.isNext_predecessor.insert_of_ne hnode.isMember_predecessor.id_mem_ids _ hps
        hp.id_mem_ids hn hsucc
      -- only `s` comes after `p`
      intro heq
      have hnext := hnode.isNext_predecessor
      rw [heq] at hnext
      have := hnet.eq_of_mem_of_id_eq hself hs (hnext.unique hps)
      rw [← hnet.endpoint_selfAt e he, this] at hne
      exact hne rfl
  have hsuccessor : ∃ t', (net'.table e).tryGetSuccessor = some t' ∧ net'.IsMember t'
      ∧ Clockwise.IsNext net'.ids (net'.selfAt e).id t'.id := by
    rw [h.successor_eq e he, h.selfAt_eq he, h.ids_eq]
    split
    . next heq =>
      rw [heq, hp.selfAt_eq]
      exact ⟨n, rfl, h.isMember_new, hleft⟩
    . next hne =>
      refine ⟨t, hnode.successor_eq, h.isMember hnode.isMember_successor, ?_⟩
      apply hnode.isNext_successor.insert_of_ne hself.id_mem_ids _ hps hp.id_mem_ids hn hsucc
      intro heq
      have := hnet.eq_of_mem_of_id_eq hself hp heq
      rw [← hnet.endpoint_selfAt e he, this] at hne
      exact hne rfl
  rcases hpredecessor with ⟨q', hq', hqmem, hqnext⟩
  rcases hsuccessor with ⟨t', ht', htmem, htnext⟩
  exact ⟨q', t', hq', ht', hqmem, htmem, hqnext, htnext⟩

end Integrated

section Rounds

variable {net : Network} {n p s : Peer}

theorem addNode_table_self (net : Network) (e : Endpoint) (rt : RoutingTable Peer) :
    (net.addNode e rt).table e = rt := by
  simp [addNode]

theorem addNode_table_of_ne (net : Network) {e e' : Endpoint} (h : e' ≠ e)
    (rt : RoutingTable Peer) :
    (net.addNode e rt).table e' = net.table e' := by
  simp [addNode, h]

@[simp]
theorem addNode_setTable (net : Network) (e : Endpoint) (rt rt' : RoutingTable Peer) :
    (net.addNode e rt).setTable e rt' = net.addNode e rt' := by
  simp [addNode, setTable]

theorem Ideal.joinRound_eq (hnet : net.Ideal) (sha256 : String → String) (out : Nat → Outside)
    {init m : Peer} (hm : net.IsMember m) (hn : n = queried sha256 (out 2).session init)
    (hend : n.endpoint ∉ net.endpoints) :
    ∃ s, net.IsMember s ∧ Clockwise.IsSuccessor net.ids n.id s.id
      ∧ (net.addNode n.endpoint (RoutingTable.init init)).joinRound sha256 out
        n.endpoint m.ip m.port
        = some (net.addNode n.endpoint
            ⟨n, none, RoutingTable.resize (s :: (net.table s.endpoint).successorList)⟩) := by
  let start := net.addNode n.endpoint (RoutingTable.init init)
  let queriedNet := start.setTable n.endpoint ((start.table n.endpoint).setSelf n)
  let message := Message.createRequest "find_successor" [⟨n.id, "", ""⟩] (out 2).transactionId
  have hserves := serves_successor hnet.toWellFormed hnet.firstSuccessorsCorrect ⟨n.id, "", ""⟩
  have hne : ∀ e ∈ net.endpoints, e ≠ n.endpoint := by
    rintro e he rfl
    exact hend he
  have hfuel : (Clockwise.remaining net.ids (net.selfAt m.endpoint).id n.id).card
      < start.endpoints.card := by
    have hlt := net.card_remaining_lt hnet.toWellFormed hm.1 n.id
    have hle : net.endpoints.card ≤ start.endpoints.card :=
      Finset.card_le_card (Finset.subset_insert _ _)
    omega
  have hcongr : queriedNet.lookup (out 1).hops start.endpoints.card m.endpoint message
      = net.lookup (out 1).hops start.endpoints.card m.endpoint message := by
    apply hserves.lookup_congr
    . exact Finset.subset_insert _ _
    . intro e he
      rw [setTable_table_of_ne (hne e he), addNode_table_of_ne net (hne e he)]
    . exact hm.1
    . rfl
  rcases hserves.lookup (out 1).hops start.endpoints.card m.endpoint message hm.1 rfl hfuel with
    ⟨response, s, hlookup, hpeers, hs, hsucc⟩
  refine ⟨s, hs, hsucc, ?_⟩
  have hself : (start.table n.endpoint).self = some init := by
    rw [addNode_table_self]
    rfl
  have hlist : (start.table n.endpoint).successorList = [init] := by
    rw [addNode_table_self]
    rfl
  have hm' : m.endpoint ∈ start.endpoints := Finset.mem_insert_of_mem hm.1
  rw [Network.joinRound_eq hself hlist hm' (Finset.mem_insert_of_mem hs.1) (hne _ hs.1)
    ⟨response, by rw [← hn, hcongr, hlookup], hpeers⟩]
  rw [← hn, addNode_setTable, addNode_table_self, addNode_table_of_ne net (hne _ hs.1)]
  rfl

structure Gap (net : Network) (n p s : Peer) : Prop where
  isMember_predecessor : net.IsMember p
  isMember_successor : net.IsMember s
  isNext : Clockwise.IsNext net.ids p.id s.id
  isSuccessor : Clockwise.IsSuccessor net.ids n.id s.id
  predecessor_eq : (net.table s.endpoint).predecessor = some p
  successor_eq : (net.table p.endpoint).tryGetSuccessor = some s
  successorList_ne_nil : (net.table s.endpoint).successorList ≠ []
  id_not_mem : n.id ∉ net.ids
  endpoint_not_mem : n.endpoint ∉ net.endpoints

theorem Ideal.exists_gap (hnet : net.Ideal) (hs : net.IsMember s)
    (hsucc : Clockwise.IsSuccessor net.ids n.id s.id) (hid : n.id ∉ net.ids)
    (hend : n.endpoint ∉ net.endpoints) : ∃ p, net.Gap n p s := by
  rcases hnet.exists_neighbours hs.1 with ⟨p, _, hnode⟩
  have hp := hnode.isMember_predecessor
  have hnext := hnode.isNext_predecessor
  rw [hs.selfAt_eq] at hnext
  rcases hnet.exists_neighbours hp.1 with ⟨_, t, hnode'⟩
  have hnext' := hnode'.isNext_successor
  rw [hp.selfAt_eq] at hnext'
  have ht : t = s :=
    hnet.toWellFormed.eq_of_mem_of_id_eq hnode'.isMember_successor hs (hnext'.unique hnext)
  have hsuccessor := hnode'.successor_eq
  rw [ht] at hsuccessor
  exact ⟨p, hp, hs, hnext, hsucc, hnode.predecessor_eq, hsuccessor,
    hnet.successorList_ne_nil hs.1, hid, hend⟩

namespace Gap

variable {sha256 : String → String} {out : Nat → Outside}

theorem between (h : net.Gap n p s) : Clockwise.Between p.id n.id s.id :=
  h.isNext.between_insert h.isMember_predecessor.id_mem_ids h.id_not_mem h.isSuccessor

theorem not_between (h : net.Gap n p s) : ¬ Clockwise.Between n.id p.id s.id := by
  have hright := Clockwise.IsNext.insert_right h.id_not_mem h.isSuccessor
  exact hright.2 p.id (Finset.mem_insert_of_mem h.isMember_predecessor.id_mem_ids)

theorem ne_of_mem (h : net.Gap n p s) {e : Endpoint} (he : e ∈ net.endpoints) : e ≠ n.endpoint := by
  rintro rfl
  exact h.endpoint_not_mem he

def newTable (net : Network) (n s : Peer) : RoutingTable Peer :=
  ⟨n, none, RoutingTable.resize (s :: (net.table s.endpoint).successorList)⟩

def joined (net : Network) (n s : Peer) : Network :=
  net.addNode n.endpoint (newTable net n s)

def announced (net : Network) (n s : Peer) : Network :=
  (joined net n s).setTable s.endpoint ((net.table s.endpoint).setPredecessor n)

theorem announced_table_new (h : net.Gap n p s) :
    (announced net n s).table n.endpoint = newTable net n s := by
  unfold announced joined
  rw [setTable_table_of_ne (h.ne_of_mem h.isMember_successor.1).symm, addNode_table_self]

theorem announced_table_successor :
    (announced net n s).table s.endpoint = (net.table s.endpoint).setPredecessor n := by
  unfold announced
  rw [setTable_table_self]

theorem announced_table_of_ne (h : net.Gap n p s) {e : Endpoint} (he : e ∈ net.endpoints)
    (hne : e ≠ s.endpoint) : (announced net n s).table e = net.table e := by
  unfold announced joined
  rw [setTable_table_of_ne hne, addNode_table_of_ne net (h.ne_of_mem he)]

theorem announced_table (h : net.Gap n p s) {e : Endpoint} (he : e ∈ net.endpoints) :
    ((announced net n s).table e).self = (net.table e).self
      ∧ ((announced net n s).table e).tryGetSuccessor = (net.table e).tryGetSuccessor := by
  -- the announcement changes no successor list and nobody's self
  by_cases heq : e = s.endpoint
  . rw [heq, announced_table_successor]
    exact ⟨rfl, rfl⟩
  . rw [h.announced_table_of_ne he heq]
    exact ⟨rfl, rfl⟩

theorem announced_tryGetPredecessor (h : net.Gap n p s) {e : Endpoint} (he : e ∈ net.endpoints) :
    ((announced net n s).table e).tryGetPredecessor
      =
    if e = s.endpoint then some n else (net.table e).tryGetPredecessor := by
  split
  . next heq =>
    rw [heq, announced_table_successor]
    rfl
  . next hne => rw [h.announced_table_of_ne he hne]

theorem stabilizeRound_new (h : net.Gap n p s) (hid : n.id ≠ "") :
    (joined net n s).stabilizeRound sha256 out n.endpoint = some (announced net n s) := by
  -- the round of the new node only tells the successor of it
  have hs := h.ne_of_mem h.isMember_successor.1
  have hnew : (joined net n s).table n.endpoint = newTable net n s := addNode_table_self net _ _
  have hold : (joined net n s).table s.endpoint = net.table s.endpoint :=
    addNode_table_of_ne net hs _
  have hself : ((joined net n s).table n.endpoint).self = some n := by
    rw [hnew]
    rfl
  have hsucc : ((joined net n s).table n.endpoint).tryGetSuccessor = some s := by
    rw [hnew]
    exact RoutingTable.head?_resize_cons _ _
  have hpred : ((joined net n s).table s.endpoint).predecessor = some p := by
    rw [hold, h.predecessor_eq]
  have hlist : ((joined net n s).table s.endpoint).successorList ≠ [] := by
    rw [hold]
    exact h.successorList_ne_nil
  have hsame : (joined net n s).setTable n.endpoint
      (((joined net n s).table n.endpoint).replaceSuccessorList
        (s :: ((joined net n s).table s.endpoint).successorList)) = joined net n s := by
    rw [hnew, hold]
    exact addNode_setTable net _ _ _
  rw [stabilizeRound_of_not_between hself hid hsucc
    (Finset.mem_insert_of_mem h.isMember_successor.1) hpred hlist h.not_between]
  rw [hsame, hold, notified_of_between h.isMember_successor.2 h.predecessor_eq h.between]
  rfl

theorem stabilizeRound_predecessor (h : net.Gap n p s) (hid : p.id ≠ "")
    (sha256 : String → String) (out : Nat → Outside) :
    ∃ net', (announced net n s).stabilizeRound sha256 out p.endpoint = some net'
      ∧ net.Integrated n p s net' := by
  have hp := h.isMember_predecessor
  have hmem := Finset.mem_insert_self n.endpoint net.endpoints
  have hself : ((announced net n s).table p.endpoint).self = some p := by
    rw [(h.announced_table hp.1).1]
    exact hp.2
  have hsucc : ((announced net n s).table p.endpoint).tryGetSuccessor = some s := by
    rw [(h.announced_table hp.1).2]
    exact h.successor_eq
  have hpred : ((announced net n s).table s.endpoint).predecessor = some n := by
    rw [announced_table_successor]
    rfl
  have hlist : ((announced net n s).table s.endpoint).successorList ≠ [] := by
    rw [announced_table_successor]
    exact h.successorList_ne_nil
  have hnew : ((announced net n s).table n.endpoint).self = some n := by
    rw [h.announced_table_new]
    rfl
  have hne := h.ne_of_mem hp.1
  rw [stabilizeRound_of_between hself hid hsucc
    (Finset.mem_insert_of_mem h.isMember_successor.1) hpred hlist h.between hmem hne.symm hnew]
  refine ⟨_, rfl, ?_⟩
  rw [setTable_table_of_ne hne.symm, h.announced_table_new, notified_of_none rfl]
  constructor
  case endpoints_eq => rfl
  case self_new =>
    rw [setTable_table_self]
    rfl
  case predecessor_new =>
    rw [setTable_table_self]
    rfl
  case successor_new =>
    rw [setTable_table_self]
    exact RoutingTable.head?_resize_cons _ _
  case self_eq =>
    intro e he
    rw [setTable_table_of_ne (h.ne_of_mem he)]
    by_cases heq : e = p.endpoint
    . rw [heq, setTable_table_self, ← (h.announced_table hp.1).1]
      rfl
    . rw [setTable_table_of_ne heq, (h.announced_table he).1]
  case predecessor_eq =>
    intro e he
    rw [setTable_table_of_ne (h.ne_of_mem he), ← h.announced_tryGetPredecessor he]
    by_cases heq : e = p.endpoint
    . rw [heq, setTable_table_self]
      rfl
    . rw [setTable_table_of_ne heq]
  case successor_eq =>
    intro e he
    rw [setTable_table_of_ne (h.ne_of_mem he)]
    by_cases heq : e = p.endpoint
    . rw [heq, setTable_table_self, if_pos rfl]
      exact RoutingTable.head?_resize_cons _ _
    . rw [setTable_table_of_ne heq, (h.announced_table he).2, if_neg heq]

end Gap

/--
After a new node has joined an ideal ring through any of its nodes, one round of the new node and
one round of its predecessor give every node its true neighbours in the ring with the new node.
-/
theorem join_integration (net : Network) (hnet : net.Ideal) (sha256 : String → String)
    (hsha : ∀ text, sha256 text ≠ "") (joinOut newOut predecessorOut : Nat → Outside)
    (init n m : Peer) (hn : n = queried sha256 (joinOut 2).session init) (hid : n.id ∉ net.ids)
    (hend : n.endpoint ∉ net.endpoints) (hm : net.IsMember m) :
    ∃ p net₁ net₂ net₃, net.IsMember p ∧ Clockwise.IsNext (insert n.id net.ids) p.id n.id
      ∧ (net.addNode n.endpoint (RoutingTable.init init)).joinRound sha256 joinOut
        n.endpoint m.ip m.port
        = some net₁
      ∧ net₁.stabilizeRound sha256 newOut n.endpoint = some net₂
      ∧ net₂.stabilizeRound sha256 predecessorOut p.endpoint = some net₃
      ∧ net₃.WellFormed
      ∧ net₃.endpoints = insert n.endpoint net.endpoints
      ∧ (∀ q, net₃.IsMember q ↔ q = n ∨ net.IsMember q)
      ∧ ∀ e ∈ net₃.endpoints, ∃ p s, net₃.Neighbours e p s := by
  rcases hnet.joinRound_eq sha256 joinOut hm hn hend with ⟨s, hs, hsucc, hjoin⟩
  rcases hnet.exists_gap hs hsucc hid hend with ⟨p, hgap⟩
  have hp := hgap.isMember_predecessor
  have hnid : n.id ≠ "" := by
    rw [hn]
    exact hsha _
  have hpid : p.id ≠ "" := by
    rw [← hp.selfAt_eq]
    exact hnet.id_ne _ hp.1
  have hnext := hgap.isNext.insert_left hp.id_mem_ids hid hsucc
  rcases hgap.stabilizeRound_predecessor hpid sha256 predecessorOut with
    ⟨net₃, hround, hint⟩
  refine ⟨p, _, _, net₃, hp, hnext, hjoin, hgap.stabilizeRound_new hnid, hround,
    hint.wellFormed hnet.toWellFormed hid, hint.endpoints_eq, ?_, ?_⟩
  . exact fun q => hint.isMember_iff
  . intro e he
    exact hint.exists_neighbours hnet.toWellFormed (fun e he => hnet.exists_neighbours he) hid hp hs
      hgap.isNext hsucc he

def oneNode (m : Peer) : Network where
  endpoints := {m.endpoint}
  table _ := ⟨m, m, List.replicate 10 m⟩

theorem oneNode_ideal {m : Peer} (hid : m.id ≠ "") : (oneNode m).Ideal := by
  have hself (e : Endpoint) : (oneNode m).selfAt e = m := rfl
  have hmem : (oneNode m).IsMember m := ⟨Finset.mem_singleton_self _, rfl⟩
  have hnext : Clockwise.IsNext (oneNode m).ids m.id m.id := by
    refine ⟨hmem.id_mem_ids, ?_⟩
    intro z hz hbetween
    rw [Clockwise.Between.self_iff] at hbetween
    exact hbetween (by simpa [ids, oneNode, selfAt] using hz)
  constructor
  case toWellFormed =>
    constructor
    case self_eq => exact fun e _ => rfl
    case endpoint_selfAt =>
      intro e he
      rw [hself]
      exact (Finset.mem_singleton.mp he).symm
    case eq_of_id_eq =>
      intro e he e' he' _
      rw [Finset.mem_singleton.mp he, Finset.mem_singleton.mp he']
  case id_ne => exact fun e _ => hid
  case predecessor => exact fun e _ => ⟨m, rfl, hmem, hnext⟩
  case size_eq => exact fun e _ => rfl
  case isMember =>
    intro e _ p hp
    rw [List.eq_of_mem_replicate hp]
    exact hmem
  case isChain =>
    intro e _
    exact List.isChain_replicate_of_rel 11 hnext

theorem join_integration_oneNode :
    let digest := "D759B665755972EBEB281C71F001361667FF5E1F4FB9BC4E1415D8881554D4C6"
    let m : Peer := ⟨"8090D98B7E355263B254979E9BF4EACF559034B531241B4FD2F45C2F753CF9D4",
      "10.0.0.1", "6100"⟩
    let n : Peer := ⟨digest, "10.0.0.2", "6100"⟩
    let out : Nat → Outside := fun _ =>
      ⟨"t1", "t2", ⟨0, "10.0.0.2"⟩, fun _ => ⟨⟨0, "10.0.0.2"⟩, "t3", "t4"⟩⟩
    ∃ p net₁ net₂ net₃,
      ((oneNode m).addNode n.endpoint (RoutingTable.init n)).joinRound (fun _ => digest) out
        n.endpoint m.ip m.port = some net₁
      ∧ net₁.stabilizeRound (fun _ => digest) out n.endpoint = some net₂
      ∧ net₂.stabilizeRound (fun _ => digest) out p = some net₃
      ∧ net₃.endpoints = {n.endpoint, m.endpoint}
      ∧ ∀ e ∈ net₃.endpoints, ∃ p s, net₃.Neighbours e p s := by
  intro digest m n out
  have hdigest : digest ≠ "" := by decide
  rcases join_integration (oneNode m) (oneNode_ideal (by decide)) (fun _ => digest)
      (fun _ => hdigest) out out out n n m rfl (by decide) (by decide) (by decide) with
    ⟨p, net₁, net₂, net₃, _, _, h₁, h₂, h₃, _, hendpoints, _, hneighbours⟩
  exact ⟨p.endpoint, net₁, net₂, net₃, h₁, h₂, h₃, hendpoints, hneighbours⟩

end Rounds

end Network

end Peerpaste
